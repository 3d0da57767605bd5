import ExprLang.Value

/-!
# Binary operators

* `BinOp` — arithmetic, comparison, equality and the two connectives.
* `BinOp.symbol` — the operator's spelling in messages.
* `BinOp.operandType?`, `BinOp.resultType` — what an operator asks of its operands and gives.
-/

set_option autoImplicit false

namespace ExprLang

inductive BinOp where
  | add
  | sub
  | mul
  | div
  | mod
  | gt
  | lt
  | eq
  | and
  | or
  deriving DecidableEq, Repr

namespace BinOp

def symbol : BinOp → String
  | .add => "+"
  | .sub => "-"
  | .mul => "*"
  | .div => "/"
  | .mod => "%"
  | .gt => ">"
  | .lt => "<"
  | .eq => "=="
  | .and => "&&"
  | .or => "||"

/-- The type both operands must have.  Equality has none: it compares two operands of any one
type. -/
def operandType? : BinOp → Option Ty
  | .add | .sub | .mul | .div | .mod | .gt | .lt => some .int
  | .and | .or => some .bool
  | .eq => none

def resultType : BinOp → Ty
  | .add | .sub | .mul | .div | .mod => .int
  | .gt | .lt | .eq | .and | .or => .bool

end BinOp

end ExprLang
