/-
Estree/Proofs/Load/Rearranged.lean

Loading does not depend on the order of members, nor on members foreign to the schema.

Each reader of `Estree.Load.Tree` agrees with itself, over readers for the level below that
agree (`ReadersAgree`); by induction on the levels all readers do (`readers_agree`), and a
document that is any number of edits away is read as the same program
(`Program.ofJson?_eqvGen`).

The statement leaves out the objects that spell a word: such an object is one only as long as it
has no other member, so there a foreign member does make a difference.
-/
import Estree.Proofs.Load.Agree
import Mathlib.Data.Option.Basic

namespace Estree

open Json (Alike Near)

namespace Load

variable {α : Type} {n m : Nat}

/-! ### Leaves -/

theorem AgreeStrictly.string {atWord : Bool} :
    AgreeStrictly (Near atWord) n m string string :=
  ⟨agree_string.near atWord, ⟨rfl, fun _ => rfl⟩, ⟨rfl, fun _ => rfl⟩⟩

theorem AgreeStrictly.bool {atWord : Bool} : AgreeStrictly (Near atWord) n m bool bool :=
  ⟨agree_bool.near atWord, ⟨rfl, fun _ => rfl⟩, ⟨rfl, fun _ => rfl⟩⟩

/-- A table of words that are all known reads alike words alike. -/
theorem AgreeStrictly.word {table : List (String × α)}
    (hall : ∀ entry ∈ table, words.contains entry.1 = true) :
    AgreeStrictly (Near true) n m (word fun s => table.lookup s) (word fun s => table.lookup s) :=
  ⟨agree_word fun _ => contains_of_lookup hall, ⟨rfl, fun _ => rfl⟩, ⟨rfl, fun _ => rfl⟩⟩

theorem AgreeStrictly.listOf {d d' : Json → Option α} (h : Agree Alike n m d d')
    {atWord : Bool} : AgreeStrictly (Near atWord) n m (listOf d) (listOf d') :=
  ⟨h.listOf.near atWord, ⟨rfl, fun _ => rfl⟩, ⟨rfl, fun _ => rfl⟩⟩

/-- A name is the one field of its record. -/
theorem agree_identifier : Agree Alike (n + 1) (m + 1) identifier identifier :=
  agree_record (by decide) fun h => h.required (by decide) .string

theorem AgreeStrictly.identifier {atWord : Bool} :
    AgreeStrictly (Near atWord) n m identifier identifier :=
  ⟨agree_identifier.of_succ.near atWord, ⟨rfl, fun _ => rfl⟩, ⟨rfl, fun _ => rfl⟩⟩

theorem agree_jumpLabel : Agree Alike (n + 1) (m + 1) jumpLabel jumpLabel :=
  agree_record (by decide) fun h =>
    h.optional (by decide) (by decide) agree_identifier.of_succ

/-- A destructuring pattern keeps its kind alone. -/
theorem agree_destructuring (kind : String) :
    Agree Alike n m (destructuring kind) (destructuring kind) :=
  fun _ _ hj hn hm => Option.bind_congr' (agree_present hj hn hm) fun _ _ => rfl

/-- A node of a kind of which only the presence is kept. -/
theorem agree_inert {β : Type} (node : Option α) {f : α → β} :
    Agree Alike n m
      (fun j => do
        let node ← node
        let _ ← present j
        some (f node))
      (fun j => do
        let node ← node
        let _ ← present j
        some (f node)) :=
  fun _ _ hj hn hm => Option.bind_congr' rfl fun _ _ =>
    Option.bind_congr' (agree_present hj hn hm) fun _ _ => rfl

/-- The value of a literal may be missing, null, or a number written in two ways. -/
theorem FieldsAlike.literalValue {schema : List String} {f f' : Fields}
    (h : FieldsAlike n m schema f f') (hvalue : "value" ∈ schema) :
    (f.orElse "value" .null fun v => some (literalValue v))
      = f'.orElse "value" .null fun v => some (Load.literalValue v) := by
  unfold Fields.orElse
  have field := h "value" hvalue
  generalize f.lookup "value" = o at field
  generalize f'.lookup "value" = o' at field
  cases field with
  | missing => rfl
  | near hj hn hm => exact agree_literalValue hj.alike hn hm
  | omitted => rfl
  | number _ hab => exact congrArg (fun x => some (LiteralValue.num x)) hab

/-- The value of a literal, and whether it is an expression or a big integer. -/
theorem agree_literal : Agree Alike (n + 1) (m + 1) literal literal :=
  agree_record (by decide) fun h =>
    Option.bind_congr' (h.literalValue (by decide)) fun _ _ =>
    Option.bind_congr' (h.optional (by decide) (by decide) agree_present) fun _ _ =>
    Option.bind_congr' (h.optional (by decide) (by decide) agree_string) fun _ _ => rfl

/-- The text of a stretch, as written and as meant. -/
theorem agree_quasiValue : Agree Alike (n + 1) (m + 1)
    (fun v => do
      let g ← record ["raw", "cooked"] v
      some (← g.required "raw" string, ← g.optional "cooked" string))
    (fun v => do
      let g ← record ["raw", "cooked"] v
      some (← g.required "raw" string, ← g.optional "cooked" string)) :=
  agree_record (by decide) fun h =>
    Option.bind_congr' (h.required (by decide) .string) fun _ _ =>
    Option.bind_congr' (h.optional (by decide) (by decide) agree_string) fun _ _ => rfl

theorem agree_quasi : Agree Alike (n + 1) (m + 1) quasi quasi :=
  agree_record (by decide) fun h =>
    Option.bind_congr' (h.required (by decide)
      ⟨agree_quasiValue.of_succ.near _, ⟨rfl, fun _ => rfl⟩, ⟨rfl, fun _ => rfl⟩⟩) fun _ _ =>
    Option.bind_congr' (h.orElse (by decide) (by decide) _ (agree_bool.near _)) fun _ _ => rfl

/-! ### One level -/

/-- Readers that agree on expressions, patterns and statements. -/
structure ReadersAgree (n m : Nat) (r r' : Readers) : Prop where
  expr : AgreeStrictly Alike n m r.expr r'.expr
  pattern : AgreeStrictly Alike n m r.pattern r'.pattern
  stmt : AgreeStrictly Alike n m r.stmt r'.stmt

/-- The declaration that a document is, if it is one. -/
def declared? (r : Readers) (j : Json) : Option (VarKind × List Declarator) :=
  tagged .nameOrNumber ["VariableDeclaration"] j >>= fun node => declaration r node.2

/-- The first part of a `for` header is a declaration if it can be one. -/
theorem forInit_eq (r : Readers) (j : Json) :
    forInit r j = (declared? r j).elim ((r.expr j).map ForInit.expression) fun d =>
      some (.variables d.1 d.2) := by
  unfold forInit
  dsimp only
  split
  · next kind declarators h =>
    have h : declared? r j = some (kind, declarators) := h
    rw [h]
    rfl
  · next h =>
    have h : declared? r j = none := h
    rw [h]
    rfl

/-- Null and numbers are no function bodies. -/
theorem strict_body {r : Readers} (h : Strict r.expr) : Strict (body r) where
  null := by rw [body, h.null]; rfl
  num a := by rw [body, h.num a]; rfl

namespace ReadersAgree

variable {r r' : Readers} (hr : ReadersAgree n m r r')
include hr

/-! #### Parts of nodes -/

theorem memberParts : Agree Alike (n + 1) (m + 1) (memberParts r) (memberParts r') :=
  agree_record (by decide) fun h =>
    Option.bind_congr' (h.required (by decide) (hr.expr.near _)) fun _ _ =>
    Option.bind_congr' (h.required (by decide) (hr.expr.near _)) fun _ _ =>
    Option.bind_congr' (h.orElse (by decide) (by decide) _ (agree_bool.near _)) fun _ _ => rfl

theorem block : Agree Alike (n + 1) (m + 1) (block r) (block r') :=
  agree_record (by decide) fun h => h.required (by decide) (.listOf hr.stmt.agree)

/-- A body is read as an expression first, and as a block if it is none. -/
theorem body : AgreeStrictly Alike n m (body r) (body r') where
  agree j j' hj hn hm := by
    rw [Load.body, Load.body, hr.expr.agree hj hn hm, hr.block.of_succ hj hn hm]
  strict := strict_body hr.expr.strict
  strict' := strict_body hr.expr.strict'

/-- The five parts that all functions have. -/
theorem function : Agree Alike (n + 1) (m + 1) (function r) (function r') :=
  agree_record (by decide) fun h =>
    Option.bind_congr' (h.optional (by decide) (by decide) agree_identifier.of_succ) fun _ _ =>
    Option.bind_congr' (h.required (by decide) (.listOf hr.pattern.agree)) fun _ _ =>
    Option.bind_congr' (h.required (by decide) (hr.body.near _)) fun _ _ =>
    Option.bind_congr' (h.orElse (by decide) (by decide) _ (agree_bool.near _)) fun _ _ =>
    Option.bind_congr' (h.orElse (by decide) (by decide) _ (agree_bool.near _)) fun _ _ => rfl

theorem declarator : Agree Alike (n + 1) (m + 1) (declarator r) (declarator r') :=
  agree_record (by decide) fun h =>
    Option.bind_congr' (h.required (by decide) (hr.pattern.near _)) fun _ _ =>
    Option.bind_congr' (h.optional (by decide) (by decide) hr.expr.agree) fun _ _ => rfl

theorem declaration : Agree Alike (n + 1) (m + 1) (declaration r) (declaration r') :=
  agree_record (by decide) fun h =>
    Option.bind_congr' (h.required (by decide) (.word (by decide))) fun _ _ =>
    Option.bind_congr' (h.required (by decide) (.listOf hr.declarator.of_succ)) fun _ _ => rfl

/-! #### Expressions -/

/-- A property with its six parts, or a spread, of which nothing is kept. -/
theorem objectMember : Agree Alike (n + 1) (m + 1) (objectMember r) (objectMember r') :=
  agree_tagged fun kind => by
    by_cases hkind : kind = "Property"
    · subst hkind
      exact agree_record (by decide) fun h =>
        Option.bind_congr' (h.required (by decide) (hr.expr.near _)) fun _ _ =>
        Option.bind_congr' (h.required (by decide) (hr.expr.near _)) fun _ _ =>
        Option.bind_congr' (h.orElse (by decide) (by decide) _
          (AgreeStrictly.word (by decide)).agree) fun _ _ =>
        Option.bind_congr' (h.orElse (by decide) (by decide) _ (agree_bool.near _)) fun _ _ =>
        Option.bind_congr' (h.orElse (by decide) (by decide) _ (agree_bool.near _)) fun _ _ =>
        Option.bind_congr' (h.orElse (by decide) (by decide) _ (agree_bool.near _)) fun _ _ => rfl
    · simp only [hkind, if_false]
      exact fun j j' hj hn hm => Option.bind_congr' (agree_present hj hn hm) fun _ _ => rfl

/-- Kind by kind: each reads a record with fields of its own. -/
theorem exprOfKind (kind : String) :
    Agree Alike (n + 1) (m + 1) (exprOfKind r kind) (exprOfKind r' kind) := by
  unfold Load.exprOfKind
  split
  · -- Identifier
    exact agree_identifier.map _
  · -- Literal
    exact agree_literal.map _
  · -- ThisExpression
    exact agree_present.map _
  · -- ArrayExpression
    exact agree_record (by decide) fun h =>
      Option.bind_congr' (h.required (by decide) (.listOf hr.expr.agree.nullable)) fun _ _ => rfl
  · -- ObjectExpression
    exact agree_record (by decide) fun h =>
      Option.bind_congr' (h.required (by decide) (.listOf hr.objectMember.of_succ)) fun _ _ => rfl
  · -- FunctionExpression
    exact hr.function.map _
  · -- ArrowFunctionExpression
    exact hr.function.map _
  · -- TemplateLiteral
    exact agree_record (by decide) fun h =>
      Option.bind_congr' (h.required (by decide) (.listOf agree_quasi.of_succ)) fun _ _ =>
      Option.bind_congr' (h.required (by decide) (.listOf hr.expr.agree)) fun _ _ => rfl
  · -- UnaryExpression
    exact agree_record (by decide) fun h =>
      Option.bind_congr' (h.required (by decide) (.word (by decide))) fun _ _ =>
      Option.bind_congr' (h.required (by decide) (hr.expr.near _)) fun _ _ => rfl
  · -- UpdateExpression
    exact agree_record (by decide) fun h =>
      Option.bind_congr' (h.required (by decide) (.word (by decide))) fun _ _ =>
      Option.bind_congr' (h.required (by decide) (hr.expr.near _)) fun _ _ =>
      Option.bind_congr' (h.required (by decide) .bool) fun _ _ => rfl
  · -- BinaryExpression
    exact agree_record (by decide) fun h =>
      Option.bind_congr' (h.required (by decide) (.word (by decide))) fun _ _ =>
      Option.bind_congr' (h.required (by decide) (hr.expr.near _)) fun _ _ =>
      Option.bind_congr' (h.required (by decide) (hr.expr.near _)) fun _ _ => rfl
  · -- LogicalExpression
    exact agree_record (by decide) fun h =>
      Option.bind_congr' (h.required (by decide) (.word (by decide))) fun _ _ =>
      Option.bind_congr' (h.required (by decide) (hr.expr.near _)) fun _ _ =>
      Option.bind_congr' (h.required (by decide) (hr.expr.near _)) fun _ _ => rfl
  · -- AssignmentExpression
    exact agree_record (by decide) fun h =>
      Option.bind_congr' (h.required (by decide) (.word (by decide))) fun _ _ =>
      Option.bind_congr' (h.required (by decide) (hr.pattern.near _)) fun _ _ =>
      Option.bind_congr' (h.required (by decide) (hr.expr.near _)) fun _ _ => rfl
  · -- ConditionalExpression
    exact agree_record (by decide) fun h =>
      Option.bind_congr' (h.required (by decide) (hr.expr.near _)) fun _ _ =>
      Option.bind_congr' (h.required (by decide) (hr.expr.near _)) fun _ _ =>
      Option.bind_congr' (h.required (by decide) (hr.expr.near _)) fun _ _ => rfl
  · -- CallExpression
    exact agree_record (by decide) fun h =>
      Option.bind_congr' (h.required (by decide) (hr.expr.near _)) fun _ _ =>
      Option.bind_congr' (h.required (by decide) (.listOf hr.expr.agree)) fun _ _ => rfl
  · -- NewExpression
    exact agree_record (by decide) fun h =>
      Option.bind_congr' (h.required (by decide) (hr.expr.near _)) fun _ _ =>
      Option.bind_congr' (h.orElse (by decide) (by decide) _ (hr.expr.agree.listOf.near _))
        fun _ _ => rfl
  · -- MemberExpression
    exact hr.memberParts.map _
  · -- SequenceExpression
    exact agree_record (by decide) fun h =>
      Option.bind_congr' (h.required (by decide) (.listOf hr.expr.agree)) fun _ _ => rfl
  · -- kinds of which only the presence is kept
    exact agree_inert _

theorem readExpr : Agree Alike (n + 1) (m + 1) (readExpr r) (readExpr r') :=
  agree_tagged hr.exprOfKind

/-! #### Patterns -/

/-- Kind by kind: each reads a record with fields of its own. -/
theorem patternOfKind (kind : String) :
    Agree Alike (n + 1) (m + 1) (patternOfKind r kind) (patternOfKind r' kind) := by
  unfold Load.patternOfKind
  split
  · -- Identifier
    exact agree_identifier.map _
  · -- MemberExpression
    exact hr.memberParts.map _
  · -- AssignmentPattern
    exact agree_record (by decide) fun h =>
      Option.bind_congr' (h.required (by decide) (hr.pattern.near _)) fun _ _ =>
      Option.bind_congr' (h.required (by decide) (hr.expr.near _)) fun _ _ => rfl
  · -- RestElement
    exact agree_record (by decide) fun h =>
      Option.bind_congr' (h.required (by decide) (hr.pattern.near _)) fun _ _ => rfl
  · -- destructuring
    exact (agree_destructuring _).map _

theorem readPattern : Agree Alike (n + 1) (m + 1) (readPattern r) (readPattern r') :=
  agree_tagged hr.patternOfKind

/-! #### Statements -/

theorem blockField {atWord : Bool} :
    AgreeStrictly (Near atWord) n m (Load.block r) (Load.block r') :=
  ⟨hr.block.of_succ.near _, ⟨rfl, fun _ => rfl⟩, ⟨rfl, fun _ => rfl⟩⟩

theorem loopParts : Agree Alike (n + 1) (m + 1) (loopParts r) (loopParts r') :=
  agree_record (by decide) fun h =>
    Option.bind_congr' (h.required (by decide) (hr.expr.near _)) fun _ _ =>
    Option.bind_congr' (h.required (by decide) (hr.stmt.near _)) fun _ _ => rfl

theorem switchCase : Agree Alike (n + 1) (m + 1) (switchCase r) (switchCase r') :=
  agree_record (by decide) fun h =>
    Option.bind_congr' (h.optional (by decide) (by decide) hr.expr.agree) fun _ _ =>
    Option.bind_congr' (h.required (by decide) (.listOf hr.stmt.agree)) fun _ _ => rfl

theorem handler : Agree Alike (n + 1) (m + 1) (handler r) (handler r') :=
  agree_record (by decide) fun h =>
    Option.bind_congr' (h.optional (by decide) (by decide) hr.pattern.agree) fun _ _ =>
    Option.bind_congr' (h.required (by decide) hr.blockField) fun _ _ => rfl

/-- A declaration if it can be read as one, else an expression; both readers go the same way. -/
theorem forInit : Agree Alike n m (forInit r) (forInit r') := by
  intro j j' hj hn hm
  have hdeclared : declared? r j = declared? r' j' :=
    agree_tagged (fun _ => hr.declaration) hj (Nat.le_succ_of_le hn) (Nat.le_succ_of_le hm)
  rw [forInit_eq, forInit_eq, hdeclared, hr.expr.agree hj hn hm]

/-- A target is tagged like a node, with kinds of its own. -/
theorem forTarget : Agree Alike (n + 1) (m + 1) (forTarget r) (forTarget r') :=
  agree_tagged fun kind => by
    dsimp only
    split
    · exact hr.declaration.map _
    · exact agree_identifier.map _
    · exact hr.memberParts.map _
    · exact (agree_destructuring _).map _

theorem forTargetField {atWord : Bool} :
    AgreeStrictly (Near atWord) n m (Load.forTarget r) (Load.forTarget r') :=
  ⟨hr.forTarget.of_succ.near _, ⟨rfl, fun _ => rfl⟩, ⟨rfl, fun _ => rfl⟩⟩

/-- Kind by kind: each reads a record with fields of its own. -/
theorem stmtOfKind (kind : String) :
    Agree Alike (n + 1) (m + 1) (stmtOfKind r kind) (stmtOfKind r' kind) := by
  unfold Load.stmtOfKind
  split
  · -- ExpressionStatement
    exact agree_record (by decide) fun h =>
      Option.bind_congr' (h.required (by decide) (hr.expr.near _)) fun _ _ => rfl
  · -- BlockStatement
    exact hr.block.map _
  · -- EmptyStatement
    exact agree_present.map _
  · -- DebuggerStatement
    exact agree_present.map _
  · -- VariableDeclaration
    exact hr.declaration.map _
  · -- FunctionDeclaration
    exact hr.function.map _
  · -- ReturnStatement
    exact agree_record (by decide) fun h =>
      Option.bind_congr' (h.optional (by decide) (by decide) hr.expr.agree) fun _ _ => rfl
  · -- BreakStatement
    exact agree_jumpLabel.map _
  · -- ContinueStatement
    exact agree_jumpLabel.map _
  · -- IfStatement
    exact agree_record (by decide) fun h =>
      Option.bind_congr' (h.required (by decide) (hr.expr.near _)) fun _ _ =>
      Option.bind_congr' (h.required (by decide) (hr.stmt.near _)) fun _ _ =>
      Option.bind_congr' (h.optional (by decide) (by decide) hr.stmt.agree) fun _ _ => rfl
  · -- SwitchStatement
    exact agree_record (by decide) fun h =>
      Option.bind_congr' (h.required (by decide) (hr.expr.near _)) fun _ _ =>
      Option.bind_congr' (h.required (by decide) (.listOf hr.switchCase.of_succ)) fun _ _ => rfl
  · -- WhileStatement
    exact hr.loopParts.map _
  · -- DoWhileStatement
    exact hr.loopParts.map _
  · -- ForStatement
    exact agree_record (by decide) fun h =>
      Option.bind_congr' (h.optional (by decide) (by decide) hr.forInit) fun _ _ =>
      Option.bind_congr' (h.optional (by decide) (by decide) hr.expr.agree) fun _ _ =>
      Option.bind_congr' (h.optional (by decide) (by decide) hr.expr.agree) fun _ _ =>
      Option.bind_congr' (h.required (by decide) (hr.stmt.near _)) fun _ _ => rfl
  · -- ForInStatement
    exact agree_record (by decide) fun h =>
      Option.bind_congr' (h.required (by decide) hr.forTargetField) fun _ _ =>
      Option.bind_congr' (h.required (by decide) (hr.expr.near _)) fun _ _ =>
      Option.bind_congr' (h.required (by decide) (hr.stmt.near _)) fun _ _ => rfl
  · -- LabeledStatement
    exact agree_record (by decide) fun h =>
      Option.bind_congr' (h.required (by decide) .identifier) fun _ _ =>
      Option.bind_congr' (h.required (by decide) (hr.stmt.near _)) fun _ _ => rfl
  · -- TryStatement
    exact agree_record (by decide) fun h =>
      Option.bind_congr' (h.required (by decide) hr.blockField) fun _ _ =>
      Option.bind_congr' (h.optional (by decide) (by decide) hr.handler.of_succ) fun _ _ =>
      Option.bind_congr' (h.optional (by decide) (by decide) hr.block.of_succ) fun _ _ => rfl
  · -- ThrowStatement
    exact agree_record (by decide) fun h =>
      Option.bind_congr' (h.required (by decide) (hr.expr.near _)) fun _ _ => rfl
  · -- kinds of which only the presence is kept
    exact agree_inert _

/-- The kind is read first and then the fields. -/
theorem readStmt (form : KindForm) :
    Agree Alike (n + 1) (m + 1) (readStmt r form) (readStmt r' form) :=
  agree_tagged hr.stmtOfKind

end ReadersAgree

/-! ### All levels -/

/-- No reader of nodes takes null or a number. -/
theorem strict_readers (n : Nat) :
    Strict (readers n).expr ∧ Strict (readers n).pattern ∧ Strict (readers n).stmt := by
  cases n <;> exact ⟨⟨rfl, fun _ => rfl⟩, ⟨rfl, fun _ => rfl⟩, ⟨rfl, fun _ => rfl⟩⟩

/-- Readers agree if those of each of the three sorts do; that they are strict they are in any
event. -/
theorem readersAgree_of (expr : Agree Alike n m (readers n).expr (readers m).expr)
    (pattern : Agree Alike n m (readers n).pattern (readers m).pattern)
    (stmt : Agree Alike n m (readers n).stmt (readers m).stmt) :
    ReadersAgree n m (readers n) (readers m) where
  expr := ⟨expr, (strict_readers n).1, (strict_readers m).1⟩
  pattern := ⟨pattern, (strict_readers n).2.1, (strict_readers m).2.1⟩
  stmt := ⟨stmt, (strict_readers n).2.2, (strict_readers m).2.2⟩

/-- Readers for as many levels as the documents have agree on documents that look alike. -/
theorem readers_agree (n m : Nat) : ReadersAgree n m (readers n) (readers m) := by
  have none {j : Json} (h : j.depth ≤ 0) : False := by cases j <;> cases h
  induction n generalizing m with
  | zero =>
    exact readersAgree_of (fun _ _ _ h _ => (none h).elim) (fun _ _ _ h _ => (none h).elim)
      fun _ _ _ h _ => (none h).elim
  | succ n ih =>
    cases m with
    | zero =>
      exact readersAgree_of (fun _ _ _ _ h => (none h).elim) (fun _ _ _ _ h => (none h).elim)
        fun _ _ _ _ h => (none h).elim
    | succ m => exact readersAgree_of (ih m).readExpr (ih m).readPattern ((ih m).readStmt _)

end Load

/-! ### Programs -/

open Load in
/-- Documents that look alike are read as the same program, or none of them is one. -/
theorem Program.ofJson?_alike {j j' : Json} (h : Alike j j') :
    Program.ofJson? j = Program.ofJson? j' := by
  have hr := readers_agree j.depth j'.depth
  exact agree_record (by decide) (fun h =>
    Option.bind_congr' (h.required (by decide) (.listOf (hr.readStmt .name).of_succ)) fun _ _ =>
    Option.bind_congr' (h.orElse (by decide) (by decide) _ (by exact agree_sourceType))
      fun _ _ => rfl) h (Nat.le_succ _) (Nat.le_succ _)

/-- So are documents that any number of edits apart. -/
theorem Program.ofJson?_eqvGen {j j' : Json}
    (h : Relation.EqvGen
      (Json.Edited Json.Respelled (fun j => j.spellsWord = true) false) j j') :
    Program.ofJson? j = Program.ofJson? j' := by
  induction h with
  | rel _ _ h => exact Program.ofJson?_alike (Near.alike (.inr h))
  | refl _ => rfl
  | symm _ _ _ ih => exact ih.symm
  | trans _ _ _ _ _ ih ih' => exact ih.trans ih'

/-- **Order and foreign members do not matter.**  If in a document any members change places,
and any members come or go that are no part of the schema, and objects that spell a word are left
alone where a word is looked for, then the document is read as the same program as before, or
neither is one. -/
theorem order_and_foreign_members_do_not_matter {j j' : Json}
    (h : Relation.EqvGen
      (Json.Edited Json.Rearranged (fun j => j.spellsWord = true) false) j j') :
    Program.ofJson? j = Program.ofJson? j' :=
  Program.ofJson?_eqvGen (h.mono fun _ _ hj => hj.mono .rearranged)

/-- A program whose members change places, while a position joins a statement of it. -/
theorem position_does_not_matter :
    let before : Json := .obj [("body", .arr [.obj [("type", .str "ThrowStatement"),
        ("argument", .obj [("type", .str "ThisExpression")])]]),
      ("sourceType", .str "module")]
    let after : Json := .obj [("sourceType", .str "module"),
      ("body", .arr [.obj [("start", .num (.int 4)), ("type", .str "ThrowStatement"),
        ("argument", .obj [("type", .str "ThisExpression")])]])]
    Relation.EqvGen (Json.Edited Json.Rearranged (fun j => j.spellsWord = true) false)
      before after ∧
    Program.ofJson? before = Program.ofJson? after := by
  intro before after
  have h : Relation.EqvGen (Json.Edited Json.Rearranged (fun j => j.spellsWord = true) false)
      before after := by
    refine .trans _ _ _ (.rel _ _ (.here (.moved (.swap _ _ _)) nofun)) (.rel _ _ ?_)
    refine .member [("sourceType", .str "module")] [] (.item [] [] ?_) nofun
    exact .here (.joined _ (by decide)) fun _ => ⟨nofun, nofun⟩
  exact ⟨h, order_and_foreign_members_do_not_matter h⟩

/-- What the theorem leaves out fails: a word that is written as an object is no word any more
when a member joins it, even one that is no part of the schema. -/
theorem word_beside_a_foreign_member_is_no_word :
    Relation.EqvGen (Json.Edited Json.Rearranged (fun _ => False) false)
      (.obj [("body", .arr []), ("sourceType", .obj [("module", .null)])])
      (.obj [("body", .arr []),
        ("sourceType", .obj [("start", .num (.int 0)), ("module", .null)])]) ∧
    Program.ofJson? (.obj [("body", .arr []), ("sourceType", .obj [("module", .null)])])
      = some { body := [], sourceType := .module } ∧
    Program.ofJson? (.obj [("body", .arr []),
      ("sourceType", .obj [("start", .num (.int 0)), ("module", .null)])]) = none := by
  refine ⟨.rel _ _ ?_, rfl, rfl⟩
  exact .member [("body", .arr [])] [] (.here (.joined _ (by decide)) fun _ => ⟨id, id⟩) nofun

end Estree
