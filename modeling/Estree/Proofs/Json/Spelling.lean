/-
Estree/Proofs/Json/Spelling.lean

The two ways to write a document as one.

A document is spelt in the same order of characters whether it is written compactly or with one item
a line; only the white space differs, and it stands at the same places.  A `Layout` says what stands
there, and `spell` is the text of a document in a layout.  The writers are `spell` in the layouts
`Layout.compact` and `Layout.lines` (`toList_compact`, `toList_indented`).

A layout is therefore all that the reader has to be robust against.  What is shown for `spell` in an
arbitrary layout holds for both writers, and for every indentation.
-/
import Estree.Json.Reader
import Estree.Json.Writer

namespace Estree

namespace Json

/-! ### Layouts -/

/-- Only white space. -/
def IsGap (cs : List Char) : Prop :=
  ∀ c ∈ cs, Cursor.isGap c = true

theorem isGap_nil : IsGap [] := by simp [IsGap]

/-- The white space in the text of a document: in front of each item and of a closing bracket, at
every depth, and behind each colon. -/
structure Layout where
  line : Nat → List Char
  space : List Char
  isGap_line : ∀ depth, IsGap (line depth)
  isGap_space : IsGap space

/-- No white space. -/
def Layout.compact : Layout where
  line _ := []
  space := []
  isGap_line _ := isGap_nil
  isGap_space := isGap_nil

/-- One item a line, indented by a gap for each container around it. -/
def Layout.lines (gap : List Char) (h : IsGap gap) : Layout where
  line depth := '\n' :: (List.replicate depth gap).flatten
  space := [' ']
  isGap_line depth := by
    intro c hc
    rcases List.mem_cons.mp hc with rfl | hc
    · rfl
    · obtain ⟨g, hg, hc⟩ := List.mem_flatten.mp hc
      rw [List.eq_of_mem_replicate hg] at hc
      exact h c hc
  isGap_space := by
    intro c hc
    cases List.mem_singleton.mp hc
    rfl

/-! ### Spelling -/

/-- A string between quotes. -/
def quoteChars (s : String) : List Char :=
  '"' :: (s.toList.flatMap escapeChar ++ ['"'])

mutual

/-- The text of a document inside `depth` containers. -/
def spell (L : Layout) (depth : Nat) : Json → List Char
  | .null => ['n', 'u', 'l', 'l']
  | .bool true => ['t', 'r', 'u', 'e']
  | .bool false => ['f', 'a', 'l', 's', 'e']
  | .num n => (numberToText n).toList
  | .str s => quoteChars s
  | .arr [] => ['[', ']']
  | .arr (j :: rest) =>
    '[' :: (L.line (depth + 1) ++ spell L (depth + 1) j ++ spellItems L (depth + 1) rest
      ++ L.line depth ++ [']'])
  | .obj [] => ['\x7b', '\x7d']
  | .obj ((name, j) :: rest) =>
    '\x7b' :: (L.line (depth + 1) ++ quoteChars name ++ ':' :: L.space ++ spell L (depth + 1) j
      ++ spellMembers L (depth + 1) rest ++ L.line depth ++ ['\x7d'])

/-- The text of further items, each after a comma. -/
def spellItems (L : Layout) (depth : Nat) : List Json → List Char
  | [] => []
  | j :: rest => ',' :: (L.line depth ++ spell L depth j ++ spellItems L depth rest)

/-- The text of further members, each after a comma. -/
def spellMembers (L : Layout) (depth : Nat) : List (String × Json) → List Char
  | [] => []
  | (name, j) :: rest =>
    ',' :: (L.line depth ++ quoteChars name ++ ':' :: L.space ++ spell L depth j
      ++ spellMembers L depth rest)

end

/-! ### The writers -/

@[simp] theorem toList_quote (s : String) : (quote s).toList = quoteChars s := by
  simp [quote, quoteChars]

theorem toList_newline (gap : String) (depth : Nat) :
    (newline gap depth).toList = '\n' :: (List.replicate depth gap.toList).flatten := by
  have h (n : Nat) (out : String) : ((List.replicate n gap).foldl (· ++ ·) out).toList
      = out.toList ++ (List.replicate n gap.toList).flatten := by
    induction n generalizing out with
    | zero => simp
    | succ n ih => simp [List.replicate_succ, ih]
  simpa [newline] using h depth "\n"

mutual

theorem toList_writeTo (out : String) (depth : Nat) :
    ∀ j, (writeTo out j).toList = out.toList ++ spell .compact depth j
  | .null | .bool true | .bool false | .arr [] | .obj [] => by simp [writeTo, spell]
  | .num n => by simp [writeTo, spell]
  | .str s => by simp [writeTo, spell]
  | .arr (j :: rest) => by
    simp [writeTo, spell, toList_writeItems _ (depth + 1) rest, toList_writeTo _ (depth + 1) j,
      Layout.compact]
  | .obj ((name, j) :: rest) => by
    simp [writeTo, spell, toList_writeMembers _ (depth + 1) rest, toList_writeTo _ (depth + 1) j,
      Layout.compact]

theorem toList_writeItems (out : String) (depth : Nat) :
    ∀ items, (writeItems out items).toList = out.toList ++ spellItems .compact depth items
  | [] => by simp [writeItems, spellItems]
  | j :: rest => by
    simp [writeItems, spellItems, toList_writeItems _ depth rest, toList_writeTo _ depth j,
      Layout.compact]

theorem toList_writeMembers (out : String) (depth : Nat) :
    ∀ members, (writeMembers out members).toList = out.toList ++ spellMembers .compact depth members
  | [] => by simp [writeMembers, spellMembers]
  | (name, j) :: rest => by
    simp [writeMembers, spellMembers, toList_writeMembers _ depth rest, toList_writeTo _ depth j,
      Layout.compact]

end

theorem toList_compact (j : Json) : j.compact.toList = spell .compact 0 j := by
  simp [compact, toList_writeTo _ 0 j]

section lines

variable {gap : String} (h : IsGap gap.toList)
include h

mutual

theorem toList_indentTo (out : String) (depth : Nat) :
    ∀ j, (indentTo gap depth out j).toList = out.toList ++ spell (.lines gap.toList h) depth j
  | .null | .arr [] | .obj [] => by simp [indentTo, spell]
  | .bool b => by cases b <;> simp [indentTo, spell]
  | .num n => by simp [indentTo, spell]
  | .str s => by simp [indentTo, spell]
  | .arr (j :: rest) => by
    simp [indentTo, spell, toList_indentItems _ (depth + 1) rest, toList_indentTo _ (depth + 1) j,
      Layout.lines, toList_newline]
  | .obj ((name, j) :: rest) => by
    simp [indentTo, spell, toList_indentMembers _ (depth + 1) rest, toList_indentTo _ (depth + 1) j,
      Layout.lines, toList_newline]

theorem toList_indentItems (out : String) (depth : Nat) :
    ∀ items, (indentItems gap depth out items).toList
      = out.toList ++ spellItems (.lines gap.toList h) depth items
  | [] => by simp [indentItems, spellItems]
  | j :: rest => by
    simp [indentItems, spellItems, toList_indentItems _ depth rest, toList_indentTo _ depth j,
      Layout.lines, toList_newline]

theorem toList_indentMembers (out : String) (depth : Nat) :
    ∀ members, (indentMembers gap depth out members).toList
      = out.toList ++ spellMembers (.lines gap.toList h) depth members
  | [] => by simp [indentMembers, spellMembers]
  | (name, j) :: rest => by
    simp [indentMembers, spellMembers, toList_indentMembers _ depth rest, toList_indentTo _ depth j,
      Layout.lines, toList_newline]

end

theorem toList_indented (j : Json) :
    (j.indented gap).toList = spell (.lines gap.toList h) 0 j := by
  simp [indented, toList_indentTo h _ 0 j]

end lines

end Json

end Estree
