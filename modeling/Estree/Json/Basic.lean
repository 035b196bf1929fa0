/-
Estree/Json/Basic.lean

JSON documents.  Objects keep their members in the order in which they are written,
repeated names included; `merged` is the document in which of several members with one name
the last value stays, at the place of the first.
-/
import Estree.Table

namespace Estree

/-- Numbers of a document: integers that fit into 64 bits, and doubles. -/
inductive JsonNumber where
  | int (n : Int)
  | float (x : Float)

/-- The number as a double. -/
def JsonNumber.toFloat : JsonNumber → Float
  | .int n => Float.ofInt n
  | .float x => x

/-- A JSON document. -/
inductive Json where
  | null
  | bool (b : Bool)
  | num (n : JsonNumber)
  | str (s : String)
  | arr (items : List Json)
  | obj (members : List (String × Json))

namespace Json

instance : Inhabited Json := ⟨.null⟩

/-- A natural number as a document. -/
def nat (n : Nat) : Json := .num (.int n)

/-- The value of the last member with a given name. -/
def member? (j : Json) (name : String) : Option Json :=
  match j with
  | .obj members => members.reverse.lookup name
  | _ => none

/-! ### Repeated members -/

mutual

/-- Every object with each name once: the last value, at the place of the first. -/
def merged : Json → Json
  | .arr items => .arr (mergedItems items)
  | .obj members => .obj (Table.ofList (mergedMembers members)).entries
  | j => j

/-- The merged items of an array. -/
def mergedItems : List Json → List Json
  | [] => []
  | j :: rest => j.merged :: mergedItems rest

/-- The merged values of members. -/
def mergedMembers : List (String × Json) → List (String × Json)
  | [] => []
  | (name, j) :: rest => (name, j.merged) :: mergedMembers rest

end

/-! ### Equality -/

/-- Equality of numbers: an integer and a double are never the same. -/
def sameNumber : JsonNumber → JsonNumber → Bool
  | .int a, .int b => a == b
  | .float x, .float y => x == y
  | _, _ => false

mutual

/-- Equality of documents.  Doubles are compared as numbers, so a document with NaN in it is
not the same as itself. -/
def same : Json → Json → Bool
  | .null, .null => true
  | .bool a, .bool b => a == b
  | .num a, .num b => sameNumber a b
  | .str a, .str b => a == b
  | .arr as, .arr bs => sameItems as bs
  | .obj as, .obj bs => sameMembers as bs
  | _, _ => false

/-- Equality of arrays, item by item. -/
def sameItems : List Json → List Json → Bool
  | [], [] => true
  | a :: as, b :: bs => a.same b && sameItems as bs
  | _, _ => false

/-- Equality of objects, member by member in order. -/
def sameMembers : List (String × Json) → List (String × Json) → Bool
  | [], [] => true
  | (m, a) :: as, (n, b) :: bs => m == n && a.same b && sameMembers as bs
  | _, _ => false

end

end Json

end Estree
