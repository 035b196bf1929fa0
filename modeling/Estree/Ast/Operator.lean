/-
Estree/Ast/Operator.lean

The operators of expressions, each with the symbol that a tree stores for it.

A symbol is written (`symbol`) and read (`ofSymbol?`) by two tables, which are kept apart: the
second lists the symbols that a document may hold, each with the operator that it stands for.

The twelve operators that also have a compound assignment form (`+=`, `>>>=`, …) are a type of
their own, `ArithOp`: a `BinaryOp` is one of them or a comparison.  What an assignment operator
does with the old value and the right side is told by a table as well, `AssignOp.combining`: it
replaces the one by the other, or it combines the two by an arithmetic or a logical operator.  An
assignment that compares is therefore not a tree at all.
-/

namespace Estree

/-- Operators that combine two operands into a new value and have a compound assignment form. -/
inductive ArithOp where
  | shl | shr | ushr
  | add | sub | mul | div | mod | exp
  | bitOr | bitXor | bitAnd
deriving DecidableEq

namespace ArithOp

/-- The symbol of the operator. -/
def symbol : ArithOp → String
  | shl => "<<" | shr => ">>" | ushr => ">>>"
  | add => "+" | sub => "-" | mul => "*" | div => "/" | mod => "%" | exp => "**"
  | bitOr => "|" | bitXor => "^" | bitAnd => "&"

/-- All of them. -/
def all : List ArithOp :=
  [shl, shr, ushr, add, sub, mul, div, mod, exp, bitOr, bitXor, bitAnd]

end ArithOp

/-- Operators of a binary expression. -/
inductive BinaryOp where
  | looseEq | looseNe | strictEq | strictNe
  | lt | le | gt | ge
  | isIn | instanceOf
  | arith (op : ArithOp)
deriving DecidableEq

namespace BinaryOp

/-- The symbol of the operator. -/
def symbol : BinaryOp → String
  | looseEq => "==" | looseNe => "!=" | strictEq => "===" | strictNe => "!=="
  | lt => "<" | le => "<=" | gt => ">" | ge => ">="
  | isIn => "in" | instanceOf => "instanceof"
  | arith op => op.symbol

/-- All of them. -/
def all : List BinaryOp :=
  [looseEq, looseNe, strictEq, strictNe, lt, le, gt, ge, isIn, instanceOf]
    ++ ArithOp.all.map arith

/-- The operators by the symbols that are read. -/
def bySymbol : List (String × BinaryOp) :=
  [("==", looseEq), ("!=", looseNe), ("===", strictEq), ("!==", strictNe),
    ("<", lt), ("<=", le), (">", gt), (">=", ge), ("in", isIn), ("instanceof", instanceOf),
    ("<<", arith .shl), (">>", arith .shr), (">>>", arith .ushr),
    ("+", arith .add), ("-", arith .sub), ("*", arith .mul), ("/", arith .div),
    ("%", arith .mod), ("**", arith .exp),
    ("|", arith .bitOr), ("^", arith .bitXor), ("&", arith .bitAnd)]

/-- The operator with a given symbol. -/
def ofSymbol? (text : String) : Option BinaryOp :=
  bySymbol.lookup text

end BinaryOp

/-- Operators that may leave their right operand unevaluated. -/
inductive LogicalOp where
  | or | and | coalesce
deriving DecidableEq

namespace LogicalOp

/-- The symbol of the operator. -/
def symbol : LogicalOp → String
  | or => "||" | and => "&&" | coalesce => "??"

/-- All of them. -/
def all : List LogicalOp := [or, and, coalesce]

/-- The operators by the symbols that are read. -/
def bySymbol : List (String × LogicalOp) :=
  [("||", or), ("&&", and), ("??", coalesce)]

/-- The operator with a given symbol. -/
def ofSymbol? (text : String) : Option LogicalOp :=
  bySymbol.lookup text

end LogicalOp

/-- Operators written in front of one operand. -/
inductive UnaryOp where
  | neg | plus | not | bitNot | typeOf | void | delete
deriving DecidableEq

namespace UnaryOp

/-- The symbol of the operator. -/
def symbol : UnaryOp → String
  | neg => "-" | plus => "+" | not => "!" | bitNot => "~"
  | typeOf => "typeof" | void => "void" | delete => "delete"

/-- All of them. -/
def all : List UnaryOp := [neg, plus, not, bitNot, typeOf, void, delete]

/-- The operators by the symbols that are read. -/
def bySymbol : List (String × UnaryOp) :=
  [("-", neg), ("+", plus), ("!", not), ("~", bitNot), ("typeof", typeOf), ("void", void),
    ("delete", delete)]

/-- The operator with a given symbol. -/
def ofSymbol? (text : String) : Option UnaryOp :=
  bySymbol.lookup text

end UnaryOp

/-- `++` and `--`. -/
inductive UpdateOp where
  | increment | decrement
deriving DecidableEq

namespace UpdateOp

/-- The symbol of the operator. -/
def symbol : UpdateOp → String
  | increment => "++" | decrement => "--"

/-- All of them. -/
def all : List UpdateOp := [increment, decrement]

/-- The operators by the symbols that are read. -/
def bySymbol : List (String × UpdateOp) :=
  [("++", increment), ("--", decrement)]

/-- The operator with a given symbol. -/
def ofSymbol? (text : String) : Option UpdateOp :=
  bySymbol.lookup text

/-- The operation applied to the old value and `1`. -/
def arith : UpdateOp → ArithOp
  | increment => .add
  | decrement => .sub

end UpdateOp

/-- Assignment operators. -/
inductive AssignOp where
  | replace
  | add | sub | mul | div | mod | exp
  | shl | shr | ushr
  | bitOr | bitXor | bitAnd
  | or | and | coalesce
deriving DecidableEq

/-- How an assignment combines the old value with the right side. -/
inductive Combining where
  /-- The right side replaces the old value. -/
  | replace
  /-- The operator is applied to the old value and the right side. -/
  | arith (op : ArithOp)
  /-- The right side is evaluated and stored only if the operator goes on after the old value. -/
  | logical (op : LogicalOp)
deriving DecidableEq

namespace AssignOp

/-- How the operator combines the old value with the right side. -/
def combining : AssignOp → Combining
  | replace => .replace
  | add => .arith .add | sub => .arith .sub | mul => .arith .mul | div => .arith .div
  | mod => .arith .mod | exp => .arith .exp
  | shl => .arith .shl | shr => .arith .shr | ushr => .arith .ushr
  | bitOr => .arith .bitOr | bitXor => .arith .bitXor | bitAnd => .arith .bitAnd
  | or => .logical .or | and => .logical .and | coalesce => .logical .coalesce

/-- The symbol of the operator. -/
def symbol : AssignOp → String
  | replace => "="
  | add => "+=" | sub => "-=" | mul => "*=" | div => "/=" | mod => "%=" | exp => "**="
  | shl => "<<=" | shr => ">>=" | ushr => ">>>="
  | bitOr => "|=" | bitXor => "^=" | bitAnd => "&="
  | or => "||=" | and => "&&=" | coalesce => "??="

/-- All of them. -/
def all : List AssignOp :=
  [replace, add, sub, mul, div, mod, exp, shl, shr, ushr, bitOr, bitXor, bitAnd, or, and,
    coalesce]

/-- The operators by the symbols that are read. -/
def bySymbol : List (String × AssignOp) :=
  [("=", replace), ("+=", add), ("-=", sub), ("*=", mul), ("/=", div), ("%=", mod), ("**=", exp),
    ("<<=", shl), (">>=", shr), (">>>=", ushr), ("|=", bitOr), ("^=", bitXor), ("&=", bitAnd),
    ("||=", or), ("&&=", and), ("??=", coalesce)]

/-- The operator with a given symbol. -/
def ofSymbol? (text : String) : Option AssignOp :=
  bySymbol.lookup text

end AssignOp

end Estree
