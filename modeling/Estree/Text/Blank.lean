/-
Estree/Text/Blank.lean

White space in the sense of Unicode: what is trimmed off a text before it is read as a number.
The next-line control U+0085 belongs to it, the byte order mark U+FEFF does not.
-/

namespace Estree.Text

/-- The characters with the Unicode property White_Space. -/
def isBlank (c : Char) : Bool :=
  let n := c.toNat
  (0x9 ≤ n && n ≤ 0xD) || n == 0x20 || n == 0x85 || n == 0xA0 || n == 0x1680
    || (0x2000 ≤ n && n ≤ 0x200A) || n == 0x2028 || n == 0x2029 || n == 0x202F
    || n == 0x205F || n == 0x3000

/-- Leave out white space at the front. -/
def trimStart (cs : List Char) : List Char :=
  cs.dropWhile isBlank

/-- Leave out white space at the end. -/
def trimEnd (cs : List Char) : List Char :=
  (cs.reverse.dropWhile isBlank).reverse

/-- Leave out white space at both ends. -/
def trim (cs : List Char) : List Char :=
  trimEnd (trimStart cs)

end Estree.Text
