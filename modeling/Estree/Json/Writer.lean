/-
Estree/Json/Writer.lean

The text of a JSON document: compact, or with one item a line and a given indentation.

Strings are written with escapes for the quote, the backslash and the controls below U+0020
only.  Integers are written by their digits; doubles by `jsonText`, and a double that is not
finite as `null`.

The writer follows the document and decides nothing: what a value looks like as a document is
settled before (`Estree.Builtin.Json`).
-/
import Estree.Json.Basic
import Estree.Decimal.Layout
import Estree.Text.Quoted

namespace Estree

namespace Json

/-- The written form of a character inside a string. -/
def escapeChar (c : Char) : List Char :=
  if c = '"' then ['\\', '"']
  else if c = '\\' then ['\\', '\\']
  else if c.toNat < 0x20 then
    match c.toNat with
    | 8 => ['\\', 'b']
    | 9 => ['\\', 't']
    | 10 => ['\\', 'n']
    | 12 => ['\\', 'f']
    | 13 => ['\\', 'r']
    | n => ['\\', 'u', '0', '0'] ++ (if n < 16 then ['0'] else []) ++ Text.hexDigits n
  else [c]

/-- A string between quotes. -/
def quote (s : String) : String :=
  "\"" ++ String.ofList (s.toList.flatMap escapeChar) ++ "\""

/-- The text of a number. -/
def numberToText : JsonNumber → String
  | .int n => signed (n < 0) (Decimal.digitsText n.natAbs)
  | .float x =>
    match Binary.ofFloat? x with
    | some b => jsonText b
    | none => "null"

/-! ### Compact text -/

mutual

/-- Write a document after what has been written. -/
def writeTo (out : String) : Json → String
  | .null => out ++ "null"
  | .bool true => out ++ "true"
  | .bool false => out ++ "false"
  | .num n => out ++ numberToText n
  | .str s => out ++ quote s
  | .arr [] => out ++ "[]"
  | .arr (j :: rest) => writeItems (j.writeTo (out ++ "[")) rest ++ "]"
  | .obj [] => out ++ "\x7b\x7d"
  | .obj ((name, j) :: rest) =>
    writeMembers (j.writeTo (out ++ "\x7b" ++ quote name ++ ":")) rest ++ "\x7d"

/-- Write further items, each after a comma. -/
def writeItems (out : String) : List Json → String
  | [] => out
  | j :: rest => writeItems (j.writeTo (out ++ ",")) rest

/-- Write further members, each after a comma. -/
def writeMembers (out : String) : List (String × Json) → String
  | [] => out
  | (name, j) :: rest => writeMembers (j.writeTo (out ++ "," ++ quote name ++ ":")) rest

end

/-- The text of a document without any white space. -/
def compact (j : Json) : String :=
  j.writeTo ""

/-! ### Indented text -/

/-- A new line at a nesting depth. -/
def newline (gap : String) (depth : Nat) : String :=
  (List.replicate depth gap).foldl (· ++ ·) "\n"

mutual

/-- Write a document at a nesting depth, one item a line. -/
def indentTo (gap : String) (depth : Nat) (out : String) : Json → String
  | .arr (j :: rest) =>
    let first := j.indentTo gap (depth + 1) (out ++ "[" ++ newline gap (depth + 1))
    indentItems gap (depth + 1) first rest ++ newline gap depth ++ "]"
  | .obj ((name, j) :: rest) =>
    let first := j.indentTo gap (depth + 1)
      (out ++ "\x7b" ++ newline gap (depth + 1) ++ quote name ++ ": ")
    indentMembers gap (depth + 1) first rest ++ newline gap depth ++ "\x7d"
  | .arr [] => out ++ "[]"
  | .obj [] => out ++ "\x7b\x7d"
  | .null => out ++ "null"
  | .bool b => out ++ (if b then "true" else "false")
  | .num n => out ++ numberToText n
  | .str s => out ++ quote s

/-- Write further items, each on a line of its own. -/
def indentItems (gap : String) (depth : Nat) (out : String) : List Json → String
  | [] => out
  | j :: rest =>
    indentItems gap depth (j.indentTo gap depth (out ++ "," ++ newline gap depth)) rest

/-- Write further members, each on a line of its own. -/
def indentMembers (gap : String) (depth : Nat) (out : String) : List (String × Json) → String
  | [] => out
  | (name, j) :: rest =>
    indentMembers gap depth
      (j.indentTo gap depth (out ++ "," ++ newline gap depth ++ quote name ++ ": ")) rest

end

/-- The text of a document with one item a line, indented by `gap`. -/
def indented (gap : String) (j : Json) : String :=
  j.indentTo gap 0 ""

end Json

end Estree
