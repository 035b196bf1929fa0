/-
Estree/Text/Quoted.lean

Texts between double quotes for diagnostics: quote, backslash and the usual controls are
written as escapes, and so is every character that would not be visible by itself.
-/
import Estree.Text.Letter
import Estree.Text.Table.Extending
import Estree.Text.Table.Unprintable

namespace Estree.Text

/-- The lower case hexadecimal digits of a number. -/
def hexDigits (n : Nat) : List Char :=
  Nat.toDigits 16 n

/-- A code point between braces. -/
def escapeCodePoint (c : Char) : List Char :=
  "\\u\x7b".toList ++ hexDigits c.toNat ++ "\x7d".toList

/-- The diagnostic form of a character. -/
def escapeChar (c : Char) : List Char :=
  if c = '"' then ['\\', '"']
  else if c = '\\' then ['\\', '\\']
  else if c = '\n' then ['\\', 'n']
  else if c = '\r' then ['\\', 'r']
  else if c = '\t' then ['\\', 't']
  else if c.toNat = 0 then ['\\', '0']
  else if inRanges extendingRanges c || inRanges unprintableRanges c then escapeCodePoint c
  else [c]

/-- A text between double quotes, with escapes. -/
def quoted (s : String) : String :=
  "\"" ++ String.ofList (s.toList.flatMap escapeChar) ++ "\""

end Estree.Text
