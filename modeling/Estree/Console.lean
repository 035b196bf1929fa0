/-
Estree/Console.lean

How values look on the console.  A text at the top is written as it is, inside of arrays and
objects between quotes.  Three levels are shown; what lies deeper is only named, and a value
inside itself is marked as circular.  Error objects are shown by their text.
-/
import Estree.Convert
import Estree.Text.Letter
import Estree.Builtin.Json

namespace Estree

namespace Console

open Builtin (Container)

/-- The number of levels that are shown. -/
def maxDepth : Nat := 3

/-- Whether a key can be written without quotes. -/
def isPlainKey (key : String) : Bool :=
  let extra (c : Char) : Bool := c = '_' || c = '$'
  match key.toList with
  | [] => false
  | c :: rest =>
    (Text.isAlphabetic c || extra c) && rest.all fun c => Text.isAlphanumeric c || extra c

/-- A key, between quotes if it needs them. -/
def keyText (key : String) : String :=
  if isPlainKey key then key else "'" ++ key ++ "'"

/-- Parts inside of brackets. -/
def bracketed (opening closing : String) (parts : List String) : String :=
  if parts.isEmpty then opening ++ closing
  else opening ++ " " ++ Text.join ", " parts ++ " " ++ closing

/-- The look of a value with `left` more levels to show; `path` are the containers around it. -/
def lookWithin (s : Store) : (left : Nat) → List Container → Value → Option String
  | left, path, v =>
    match v with
    | .str text => some (if path.isEmpty then text else "'" ++ text ++ "'")
    | .array id =>
      if path.contains (.array id) then some "[Circular]"
      else
        match left with
        | 0 => some "[Array]"
        | left + 1 =>
          let parts := (s.items id).toList.mapM fun item =>
            lookWithin s left (.array id :: path) item
          parts.map (bracketed "[" "]")
    | .object id =>
      if path.contains (.object id) then some "[Circular]"
      else
        match (s.object id).brand with
        | .error _ => s.text? v
        | .plain | .instance _ =>
          match left with
          | 0 => some "[Object]"
          | left + 1 =>
            let parts := (s.object id).props.entries.mapM fun entry =>
              (lookWithin s left (.object id :: path) entry.2).map fun look =>
                keyText entry.1 ++ ": " ++ look
            parts.map (bracketed "\x7b" "\x7d")
    | .closure id => some ("[Function: " ++ (s.closure id).displayName ++ "]")
    | .native id => some ("[Function: " ++ (s.native id).name ++ "]")
    | _ => s.text? v

/-- The look of a value. -/
def look? (s : Store) (v : Value) : Option String :=
  lookWithin s maxDepth [] v

/-- The line for a list of values: texts as they are, everything else by its look. -/
def line? (s : Store) (args : List Value) : Option String :=
  let parts := args.mapM fun arg =>
    match arg with
    | .str text => some text
    | _ => look? s arg
  parts.map (Text.join " ")

/-- Write values to the console. -/
def write (level : Level) (args : List Value) : Run Store Value := do
  let line ← Run.ofOption fun s => line? s args
  Store.writeLine level line
  return .undefined

/-- All lines, each ended by a line break. -/
def output (c : Console) : String :=
  c.lines.foldl (fun out entry => out ++ entry.2 ++ "\n") ""

end Console

end Estree
