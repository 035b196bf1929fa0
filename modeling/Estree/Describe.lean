/-
Estree/Describe.lean

Short descriptions of values for diagnostics.  A description tells of what sort a value is and
shows primitive values in full; of an array it gives the length, of an object its brand and its
keys, of a function its name.  It looks into no other value, so every value has one.
-/
import Estree.Store
import Estree.Decimal.Layout
import Estree.Text.Quoted
import Estree.Text.Search

namespace Estree

namespace Describe

/-- A record with its fields between braces. -/
def record (name : String) (fields : List String) : String :=
  name ++ " \x7b " ++ Text.join ", " fields ++ " \x7d"

/-- A text that may be missing. -/
def optional : Option String → String
  | some text => "Some(" ++ Text.quoted text ++ ")"
  | none => "None"

/-- The sort of a function of the program. -/
def closureKind : ClosureKind → String
  | .normal => "Normal"
  | .arrow => "Arrow"

/-- A function of the program as the maker of an object. -/
def maker (c : Closure) : String :=
  record "Closure"
    ["name: " ++ optional c.name, "kind: " ++ closureKind c.kind,
      "params: " ++ toString c.node.params.length, ".."]

/-- What made an object. -/
def brand (s : Store) : Brand → String
  | .plain => "Plain"
  | .error name => "Error(" ++ Text.quoted name ++ ")"
  | .instance made => "Instance(" ++ maker (s.closure made) ++ ")"

/-- An object. -/
def object (s : Store) (o : Object) : String :=
  record "Object"
    ["brand: " ++ brand s o.brand,
      "keys: [" ++ Text.join ", " (o.props.keys.map Text.quoted) ++ "]"]

end Describe

/-- The description of a value. -/
def Store.describe (s : Store) : Value → String
  | .undefined => "Undefined"
  | .null => "Null"
  | .bool b => "Bool(" ++ (if b then "true" else "false") ++ ")"
  | .num x => "Number(" ++ plainText x ++ ")"
  | .str text => "Str(" ++ Text.quoted text ++ ")"
  | .array id => "Array(len=" ++ toString (s.items id).size ++ ")"
  | .object id => Describe.object s (s.object id)
  | .closure id => "Function(" ++ (s.closure id).displayName ++ ")"
  | .native id => "Native(" ++ (s.native id).name ++ ")"

end Estree
