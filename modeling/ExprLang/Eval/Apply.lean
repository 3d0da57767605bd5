import ExprLang.BinOp
import ExprLang.Report

/-!
# Application of operators to values

* `Value.expectInt`, `Value.expectBool`, `Value.expectString` — the payload of a value of the
  wanted kind, or a type error that shows the value.
* `BinOp.apply` — the result of an operator.  Of two unfit operands the left one is reported.
  Arithmetic wraps around; division truncates toward zero; equality compares any two values, and
  values of different types differ.
-/

set_option autoImplicit false

namespace ExprLang

namespace Value

def expectInt : Value → Except RunError Int32
  | .int n => .ok n
  | v => .error (.typeError .int v)

def expectBool : Value → Except RunError Bool
  | .bool b => .ok b
  | v => .error (.typeError .bool v)

def expectString : Value → Except RunError String
  | .string s => .ok s
  | v => .error (.typeError .string v)

end Value

namespace BinOp

/-- The number `n`, unless the divisor it was found with is zero. -/
def unlessZero (divisor : Int32) (e : RunError) (n : Int32) : Except RunError Value :=
  if divisor = 0 then .error e else .ok (.int n)

/-- Both operands must be integers. -/
def onInts (left right : Value) (f : Int32 → Int32 → Except RunError Value) :
    Except RunError Value := do
  let a ← left.expectInt
  let b ← right.expectInt
  f a b

/-- Both operands must be truth values; neither decides alone. -/
def onBools (left right : Value) (f : Bool → Bool → Bool) : Except RunError Value := do
  let a ← left.expectBool
  let b ← right.expectBool
  return .bool (f a b)

def apply (op : BinOp) (left right : Value) : Except RunError Value :=
  match op with
  | .add => onInts left right fun a b => .ok (.int (a + b))
  | .sub => onInts left right fun a b => .ok (.int (a - b))
  | .mul => onInts left right fun a b => .ok (.int (a * b))
  | .div => onInts left right fun a b => unlessZero b .divisionByZero (a / b)
  | .mod => onInts left right fun a b => unlessZero b .moduloByZero (a % b)
  | .gt => onInts left right fun a b => .ok (.bool (decide (a > b)))
  | .lt => onInts left right fun a b => .ok (.bool (decide (a < b)))
  | .eq => .ok (.bool (decide (left = right)))
  | .and => onBools left right (· && ·)
  | .or => onBools left right (· || ·)

end BinOp

end ExprLang
