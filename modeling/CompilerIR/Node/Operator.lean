/-!
Operators of expressions. Each has the symbol it is written with in source code, and a
name of its own for reports and saved trees.
-/

namespace CompilerIR

/-- Operators that compute a new value from two operands of their kind. A compound
assignment exists for each of them. -/
inductive Arithmetic
  | mul
  | div
  | mod
  | add
  | sub
  | shl
  | shr
  /-- Right shift that fills with zeros. -/
  | shru
  | bitAnd
  | bitXor
  | bitOr
deriving DecidableEq

namespace Arithmetic

def all : List Arithmetic :=
  [.mul, .div, .mod, .add, .sub, .shl, .shr, .shru, .bitAnd, .bitXor, .bitOr]

def symbol : Arithmetic → String
  | .mul => "*"
  | .div => "/"
  | .mod => "%"
  | .add => "+"
  | .sub => "-"
  | .shl => "<<"
  | .shr => ">>"
  | .shru => ">>>"
  | .bitAnd => "&"
  | .bitXor => "^"
  | .bitOr => "|"

def name : Arithmetic → String
  | .mul => "Mul"
  | .div => "Div"
  | .mod => "Mod"
  | .add => "Add"
  | .sub => "Sub"
  | .shl => "Shl"
  | .shr => "Shr"
  | .shru => "Shru"
  | .bitAnd => "BitAnd"
  | .bitXor => "BitXor"
  | .bitOr => "BitOr"

end Arithmetic

inductive BinaryOp
  | compute (op : Arithmetic)
  | lt
  | lte
  | gt
  | gte
  | eq
  | neq
  | and
  | or
  | assign
  /-- Compound assignment. -/
  | update (op : Arithmetic)
deriving DecidableEq

namespace BinaryOp

def all : List BinaryOp :=
  Arithmetic.all.map .compute ++
  [.lt, .lte, .gt, .gte, .eq, .neq, .and, .or, .assign] ++
  Arithmetic.all.map .update

def symbol : BinaryOp → String
  | .compute op => op.symbol
  | .lt => "<"
  | .lte => "<="
  | .gt => ">"
  | .gte => ">="
  | .eq => "=="
  | .neq => "!="
  | .and => "&&"
  | .or => "||"
  | .assign => "="
  | .update op => op.symbol ++ "="

def name : BinaryOp → String
  | .compute op => op.name
  | .lt => "Lt"
  | .lte => "Lte"
  | .gt => "Gt"
  | .gte => "Gte"
  | .eq => "Eq"
  | .neq => "Neq"
  | .and => "And"
  | .or => "Or"
  | .assign => "Assign"
  | .update op => "Assign" ++ op.name

def ofName? (name : String) : Option BinaryOp := all.find? (·.name = name)

def isAssignment : BinaryOp → Bool
  | .assign | .update _ => true
  | _ => false

end BinaryOp

inductive PrefixOp
  | inc
  | dec
  | neg
  | not
  | bitNot
deriving DecidableEq

namespace PrefixOp

def all : List PrefixOp := [.inc, .dec, .neg, .not, .bitNot]

def symbol : PrefixOp → String
  | .inc => "++"
  | .dec => "--"
  | .neg => "-"
  | .not => "!"
  | .bitNot => "~"

def name : PrefixOp → String
  | .inc => "Inc"
  | .dec => "Dec"
  | .neg => "Neg"
  | .not => "Not"
  | .bitNot => "BitNot"

def ofName? (name : String) : Option PrefixOp := all.find? (·.name = name)

def writesBack : PrefixOp → Bool
  | .inc | .dec => true
  | _ => false

end PrefixOp

inductive PostfixOp
  | inc
  | dec
deriving DecidableEq

namespace PostfixOp

def all : List PostfixOp := [.inc, .dec]

def symbol : PostfixOp → String
  | .inc => "++"
  | .dec => "--"

def name : PostfixOp → String
  | .inc => "Inc"
  | .dec => "Dec"

def ofName? (name : String) : Option PostfixOp := all.find? (·.name = name)

end PostfixOp

end CompilerIR
