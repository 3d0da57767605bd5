import ExprLang.Text.Decimal
import ExprLang.Text.Quoted

/-!
# Types and values

* `Ty` — the four types; there is no way to build further ones.
* `Value` — what expressions evaluate to; every value is also a literal of the language.
* `Value.type` — the one type a value has.
* `Value.text` — the value as messages show it: strings quoted, everything else bare.
* `Value.taggedText` — the same with the value's kind around it.
-/

set_option autoImplicit false

namespace ExprLang

/-! ## Types -/

/-- Names of variables, parameters and functions: any text. -/
abbrev Name := String

inductive Ty where
  | int
  | bool
  | string
  | unit
  deriving DecidableEq, Repr

/-- The type's spelling in messages. -/
def Ty.text : Ty → String
  | .int => "Int"
  | .bool => "Bool"
  | .string => "String"
  | .unit => "Unit"

theorem Ty.text_injective {t u : Ty} (h : t.text = u.text) : t = u := by
  cases t <;> cases u <;> simp_all [Ty.text]

/-! ## Values -/

/-- Integers are 32 bits wide and wrap around. -/
inductive Value where
  | int (n : Int32)
  | bool (b : Bool)
  | string (s : String)
  | unit
  deriving DecidableEq, Repr

namespace Value

def type : Value → Ty
  | .int _ => .int
  | .bool _ => .bool
  | .string _ => .string
  | .unit => .unit

/-- The spelling of a truth value. -/
def boolText (b : Bool) : String := if b then "true" else "false"

def text : Value → String
  | .int n => Decimal.ofInt n.toInt
  | .bool b => boolText b
  | .string s => Quoted.quote s
  | .unit => "()"

def taggedText (v : Value) : String :=
  match v with
  | .int _ => "Int(" ++ v.text ++ ")"
  | .bool _ => "Bool(" ++ v.text ++ ")"
  | .string _ => "String(" ++ v.text ++ ")"
  | .unit => "Unit"

end Value

end ExprLang
