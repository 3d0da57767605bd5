import ExprLang.Report
import ExprLang.Text.Decimal32

/-!
# Casts

| target | accepted |
|---|---|
| `String` | every value: integers in decimal, `true` and `false`, strings as they are, `()` |
| `Int` | integers, truth values as 1 and 0, strings that are a decimal number of 32 bits |
| `Bool` | truth values, the strings `true` and `false` |
| `Unit` | the unit value |

* `cast` — the converted value, or the failure that names value and target.
* `int32OfText?` — the number that a string stands for, if it fits.

Principal result: `int32OfText?_eq` — the string is read as a number of any size, which must then
have 32 bits.
-/

set_option autoImplicit false

namespace ExprLang

/-- What follows a minus sign, or everything. -/
def unsigned : List Char → List Char
  | '-' :: cs => cs
  | cs => cs

/-- An optional minus sign and digits, in the range of 32-bit integers.  The parser would take a
plus sign too, so the characters are looked at first. -/
def int32OfText? (s : String) : Option Int32 :=
  let digits := unsigned s.toList
  if digits ≠ [] ∧ digits.all Char.isDigit then Decimal.parse? s.toList else none

def boolOfText? (s : String) : Option Bool :=
  if s = Value.boolText true then some true
  else if s = Value.boolText false then some false
  else none

def castText : Value → String
  | .string s => s
  | v => v.text

def cast? : Ty → Value → Option Value
  | .string, v => some (.string (castText v))
  | .int, .int n => some (.int n)
  | .int, .bool b => some (.int (if b then 1 else 0))
  | .int, .string s => (int32OfText? s).map .int
  | .bool, .bool b => some (.bool b)
  | .bool, .string s => (boolOfText? s).map .bool
  | .unit, .unit => some .unit
  | _, _ => none

def cast (v : Value) (target : Ty) : Except RunError Value :=
  match cast? target v with
  | some converted => .ok converted
  | none => .error (.castFailure v target)

/-! ## Laws -/

theorem cast?_int_string (s : String) : cast? .int (.string s) = (int32OfText? s).map .int := rfl

theorem unsigned_of_ne {c : Char} {cs : List Char} (h : c ≠ '-') :
    unsigned (c :: cs) = c :: cs := by
  unfold unsigned
  split
  · rename_i heq
    exact absurd (List.head_eq_of_cons_eq heq) h
  · rfl

/-- **The filter and the parser behind it** let exactly the numbers through that fit. -/
theorem int32OfText?_eq (s : String) : int32OfText? s = (Decimal.read? s).bind Decimal.fit? := by
  rw [int32OfText?, Decimal.read?]
  generalize s.toList = cs
  cases cs with
  | nil => rfl
  | cons c cs =>
    by_cases hc : c = '-'
    · subst hc
      show (if cs ≠ [] ∧ cs.all Char.isDigit then Decimal.parseDigits? true cs else none) = _
      rw [Decimal.readSigned?, Decimal.readDigits?]
      split
      · rename_i h
        rw [Decimal.parseDigits?_eq_fit? true h.1 (List.all_eq_true.mp h.2)]
        rfl
      · rfl
    · rw [unsigned_of_ne hc, Decimal.readSigned?_of_ne hc, Decimal.readDigits?]
      split
      · rename_i h
        have hall := List.all_eq_true.mp h.2
        have hfit := Decimal.parseDigits?_eq_fit? false h.1 hall
        rw [Decimal.parse?_of_isDigit (hall c List.mem_cons_self), hfit]
        rfl
      · rfl

end ExprLang
