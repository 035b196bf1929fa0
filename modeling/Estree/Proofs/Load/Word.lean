/-
Estree/Proofs/Load/Word.lean

The words of the schema are read as they are written.

Operators, keywords of declarations, roles of properties, source types and the kinds of inert nodes
are written by one table (`symbol`, `keyword`, `word`, `kind`) and read by another one, a list of
pairs.  Nothing but a comparison of the two says that they agree.  A list is a *vocabulary* of a
written form (`Vocabulary`) if each of its words is the written form of the thing beside it, if
every thing is in it, and if no word stands there twice; then a word is read as a thing exactly if
it is the word that is written for it (`Vocabulary.lookup_eq_some_iff`).  Each of the ten tables is
compared once, and the loader needs only that what has been written is read back
(`Vocabulary.lookup`).
-/
import Estree.Ast.Node

namespace Estree

/-- A list of words in which every thing stands once, under the word that is written for it. -/
structure Vocabulary {α : Type} (table : List (String × α)) (write : α → String) : Prop where
  written : ∀ entry ∈ table, entry.1 = write entry.2
  complete : ∀ a, (write a, a) ∈ table
  nodup : (table.map Prod.fst).Nodup

namespace Vocabulary

variable {α : Type} {table : List (String × α)} {write : α → String} {text : String} {a : α}

/-- What has been written is read back. -/
theorem lookup (h : Vocabulary table write) (a : α) : table.lookup (write a) = some a := by
  have hnodup := h.nodup
  obtain ⟨before, after, hsplit⟩ := List.append_of_mem (h.complete a)
  rw [hsplit, List.map_append, List.map_cons, List.nodup_append] at hnodup
  rw [List.lookup_eq_some_iff]
  refine ⟨before, after, hsplit, ?_⟩
  intro entry hentry
  have hne := hnodup.2.2 entry.1 (List.mem_map_of_mem hentry) (write a) List.mem_cons_self
  exact bne_iff_ne.2 hne.symm

/-- A word is read as a thing exactly if it is the one that is written for it. -/
theorem lookup_eq_some_iff (h : Vocabulary table write) :
    table.lookup text = some a ↔ text = write a := by
  constructor
  · intro hread
    obtain ⟨before, after, rfl, -⟩ := List.lookup_eq_some_iff.1 hread
    exact h.written (text, a) (List.mem_append_right _ List.mem_cons_self)
  · rintro rfl
    exact h.lookup a

end Vocabulary

/-! ### The tables of the schema -/

/-- The words of the binary operators. -/
theorem BinaryOp.vocabulary : Vocabulary BinaryOp.bySymbol BinaryOp.symbol where
  written := by decide
  complete
    | .arith op => by cases op <;> decide
    | .looseEq | .looseNe | .strictEq | .strictNe => by decide
    | .lt | .le | .gt | .ge | .isIn | .instanceOf => by decide
  nodup := by decide

/-- The words of the logical operators. -/
theorem LogicalOp.vocabulary : Vocabulary LogicalOp.bySymbol LogicalOp.symbol where
  written := by decide
  complete op := by cases op <;> decide
  nodup := by decide

/-- The words of the unary operators. -/
theorem UnaryOp.vocabulary : Vocabulary UnaryOp.bySymbol UnaryOp.symbol where
  written := by decide
  complete op := by cases op <;> decide
  nodup := by decide

/-- The words of `++` and `--`. -/
theorem UpdateOp.vocabulary : Vocabulary UpdateOp.bySymbol UpdateOp.symbol where
  written := by decide
  complete op := by cases op <;> decide
  nodup := by decide

/-- The words of the assignment operators. -/
theorem AssignOp.vocabulary : Vocabulary AssignOp.bySymbol AssignOp.symbol where
  written := by decide
  complete op := by cases op <;> decide
  nodup := by decide

/-- The keywords of declarations. -/
theorem VarKind.vocabulary : Vocabulary VarKind.byKeyword VarKind.keyword where
  written := by decide
  complete kind := by cases kind <;> decide
  nodup := by decide

/-- The words for the roles of the properties of an object literal. -/
theorem PropertyKind.vocabulary : Vocabulary PropertyKind.byWord PropertyKind.word where
  written := by decide
  complete kind := by cases kind <;> decide
  nodup := by decide

/-- The words of the source types. -/
theorem SourceType.vocabulary : Vocabulary SourceType.byWord SourceType.word where
  written := by decide
  complete kind := by cases kind <;> decide
  nodup := by decide

/-- The names of the kinds of expressions that are loaded but never evaluated. -/
theorem InertExpr.vocabulary : Vocabulary InertExpr.byKind InertExpr.kind where
  written := by decide
  complete node := by cases node <;> decide
  nodup := by decide

/-- The names of the kinds of statements that are loaded but never run. -/
theorem InertStmt.vocabulary : Vocabulary InertStmt.byKind InertStmt.kind where
  written := by decide
  complete node := by cases node <;> decide
  nodup := by decide

end Estree
