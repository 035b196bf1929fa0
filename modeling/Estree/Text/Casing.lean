/-
Estree/Text/Casing.lean

Full upper and lower casing.  A character may become several (`ß` becomes `SS`).  The Greek
capital sigma has two lower case forms: at the end of a word it becomes the final sigma.
-/
import Estree.Text.Letter
import Estree.Text.Table.UpperCase
import Estree.Text.Table.LowerCase
import Estree.Text.Table.Cased
import Estree.Text.Table.CaseIgnorable

namespace Estree.Text

/-- Map a code point by a table of runs. -/
def mapByRuns (runs : List (Nat × Nat × Nat × Int)) (n : Nat) : Nat :=
  match runs.find? fun run => run.1 ≤ n && n ≤ run.2.1 && (n - run.1) % run.2.2.1 == 0 with
  | some run => ((n : Int) + run.2.2.2).toNat
  | none => n

/-- Map a character by a table of special forms, and failing that by a table of runs. -/
def mapCase (special : List (Nat × List Nat)) (runs : List (Nat × Nat × Nat × Int)) (c : Char) :
    List Char :=
  match special.lookup c.toNat with
  | some forms => forms.map Char.ofNat
  | none => [Char.ofNat (mapByRuns runs c.toNat)]

/-- The upper case form of a character. -/
def upperOfChar (c : Char) : List Char :=
  mapCase upperSpecial upperRuns c

/-- The lower case form of a character, without regard to its neighbours. -/
def lowerOfChar (c : Char) : List Char :=
  mapCase lowerSpecial lowerRuns c

/-- Whether the nearest character that is not ignorable for casing is a cased letter. -/
def nextIsCased (cs : List Char) : Bool :=
  match cs.dropWhile (inRanges caseIgnorableRanges) with
  | c :: _ => inRanges casedRanges c
  | [] => false

/-- Upper case of a text. -/
def upper (cs : List Char) : List Char :=
  cs.flatMap upperOfChar

/-- Lower case of a text whose preceding characters, last first, are `before`. -/
def lowerAfter (before : List Char) : List Char → List Char
  | [] => []
  | c :: rest =>
    let here :=
      -- capital sigma: final after a letter that no letter follows
      if c.toNat = 0x3A3 then
        [Char.ofNat (if nextIsCased before && !nextIsCased rest then 0x3C2 else 0x3C3)]
      else lowerOfChar c
    here ++ lowerAfter (c :: before) rest

/-- Lower case of a text. -/
def lower (cs : List Char) : List Char :=
  lowerAfter [] cs

end Estree.Text
