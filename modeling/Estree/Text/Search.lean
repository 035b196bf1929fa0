/-
Estree/Text/Search.lean

Searching and splitting sequences of characters.  What is found is found at a byte of the text in
UTF-8; positions that are told count characters.
-/

namespace Estree.Text

/-- The byte at which `needle` occurs first, where the text begins with the byte `start`. -/
def findFrom (needle : List Char) : Nat → List Char → Option Nat
  | start, [] => if needle.isEmpty then some start else none
  | start, c :: rest =>
    if needle.isPrefixOf (c :: rest) then some start
    else findFrom needle (start + c.utf8Size) rest

/-- The byte at which `needle` occurs first. -/
def find (needle text : List Char) : Option Nat :=
  findFrom needle 0 text

/-- The number of characters in front of a byte. -/
def countBefore : Nat → List Char → Nat
  | _, [] => 0
  | byte, c :: rest => if byte = 0 then 0 else countBefore (byte - c.utf8Size) rest + 1

/-- The first position at which `needle` occurs: the number of characters in front of the byte at
which it is found. -/
def indexOf (needle text : List Char) : Option Nat :=
  (find needle text).map fun byte => countBefore byte text

/-- Whether `needle` occurs. -/
def contains (needle : List Char) : List Char → Bool
  | [] => needle.isEmpty
  | c :: rest => needle.isPrefixOf (c :: rest) || contains needle rest

/-- Cut a text at the occurrences of a separator, taken from left to right without overlap.
`piece` is what has been read since the last cut, backwards; `skip` counts the characters of
an occurrence that are still to be passed over. -/
def splitFrom (separator : List Char) : (skip : Nat) → (piece : List Char) → List Char →
    List (List Char)
  | _, piece, [] => [piece.reverse]
  | 0, piece, c :: rest =>
    if separator.isPrefixOf (c :: rest) then
      piece.reverse :: splitFrom separator (separator.length - 1) [] rest
    else splitFrom separator 0 (c :: piece) rest
  | skip + 1, piece, _ :: rest => splitFrom separator skip piece rest

/-- The pieces between the occurrences of a non-empty separator; between single characters if
the separator is empty. -/
def split (separator text : List Char) : List (List Char) :=
  if separator.isEmpty then text.map fun c => [c] else splitFrom separator 0 [] text

/-- Put a separator between texts. -/
def join (separator : String) : List String → String
  | [] => ""
  | first :: rest => rest.foldl (fun acc s => acc ++ separator ++ s) first

end Estree.Text
