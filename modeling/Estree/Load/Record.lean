/-
Estree/Load/Record.lean

How the parts of a tree are found in a JSON document.

A record is written as an object, in any order and with foreign members, but no field of it
twice; or as the array of its field values in the order of the schema, where fields at the
end may be left out.  A node of one of several kinds names its kind: as the member `type` of
an object, or as the first item of an array.  Inside a node the kind may also be given by its
number in the list of kinds.
-/
import Estree.Json.Basic

namespace Estree.Load

variable {α : Type}

/-! ### Records -/

/-- The fields of a record by name. -/
abbrev Fields := List (String × Json)

/-- The fields of a record with a given schema. -/
def record (schema : List String) : Json → Option Fields
  | .obj members =>
    if schema.all fun name => (members.filter fun m => m.1 == name).length ≤ 1 then some members
    else none
  | .arr items => if items.length ≤ schema.length then some (schema.zip items) else none
  | _ => none

namespace Fields

/-- A field that must be there. -/
def required (fields : Fields) (name : String) (decode : Json → Option α) : Option α :=
  (fields.lookup name).bind decode

/-- A field that may be missing or null. -/
def optional (fields : Fields) (name : String) (decode : Json → Option α) : Option (Option α) :=
  match fields.lookup name with
  | none | some .null => some none
  | some j => (decode j).map some

/-- A field that may be missing, with the value it has then. -/
def orElse (fields : Fields) (name : String) (value : α) (decode : Json → Option α) :
    Option α :=
  match fields.lookup name with
  | none => some value
  | some j => decode j

end Fields

/-! ### Simple values -/

/-- A string. -/
def string : Json → Option String
  | .str s => some s
  | _ => none

/-- A truth value. -/
def bool : Json → Option Bool
  | .bool b => some b
  | _ => none

/-- A list. -/
def listOf (decode : Json → Option α) : Json → Option (List α)
  | .arr items => items.mapM decode
  | _ => none

/-- A value or null. -/
def nullable (decode : Json → Option α) : Json → Option (Option α)
  | .null => some none
  | j => (decode j).map some

/-- One word of a fixed set: as a string, or as the name of an object's only member, whose
value says nothing. -/
def word (ofWord? : String → Option α) : Json → Option α
  | .str s => ofWord? s
  | .obj [(s, .null)] => ofWord? s
  | .obj [(s, .obj [])] => ofWord? s
  | _ => none

/-- A node of which nothing but its presence is kept. -/
def present : Json → Option Unit
  | .obj _ => some ()
  | .arr [] => some ()
  | _ => none

/-! ### Kinds -/

/-- How the kind of a node may be given. -/
inductive KindForm where
  /-- By name only. -/
  | name
  /-- By name or by number. -/
  | nameOrNumber
deriving DecidableEq

/-- The kind that a tag gives. -/
def kindOfTag (form : KindForm) (kinds : List String) : Json → Option String
  | .str s => if kinds.contains s then some s else none
  | .num (.int n) => if form = .nameOrNumber ∧ 0 ≤ n then kinds[n.toNat]? else none
  | _ => none

/-- Split a node into its kind and its fields. -/
def tagged (form : KindForm) (kinds : List String) : Json → Option (String × Json)
  | .obj members =>
    match members.filter fun m => m.1 == "type" with
    | [(_, tag)] =>
      (kindOfTag form kinds tag).map fun kind =>
        (kind, .obj (members.filter fun m => m.1 != "type"))
    | _ => none
  | .arr (tag :: items) => (kindOfTag form kinds tag).map fun kind => (kind, .arr items)
  | _ => none

end Estree.Load
