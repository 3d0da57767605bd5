/-!
# Decimal text of integers

* `ofNat`, `ofInt` — the shortest text; a negative number has a minus sign in front.
* `read?` — accepts an optional minus sign followed by one or more ASCII digits, any number of
  leading zeros included, and nothing else.

Principal results: `read?_ofInt` — reading what was written gives the number back;
`readDigits?_eq_some_iff` — exactly the nonempty runs of digits are read.
-/

set_option autoImplicit false

namespace ExprLang.Decimal

def ofNat (n : Nat) : String := String.ofList (Nat.toDigits 10 n)

def ofInt (i : Int) : String :=
  if i < 0 then "-" ++ ofNat i.natAbs else ofNat i.natAbs

/-- One or more ASCII digits. -/
def readDigits? (cs : List Char) : Option Nat :=
  if cs ≠ [] ∧ cs.all Char.isDigit then some (Nat.ofDigitChars 10 cs 0) else none

/-- Reads an optional minus sign and digits. -/
def readSigned? : List Char → Option Int
  | '-' :: cs => (readDigits? cs).map fun n => -(n : Int)
  | cs => (readDigits? cs).map fun n => (n : Int)

def read? (s : String) : Option Int := readSigned? s.toList

/-! ## Laws -/

theorem readDigits?_eq_some_iff {cs : List Char} {n : Nat} :
    readDigits? cs = some n ↔
      cs ≠ [] ∧ (∀ c ∈ cs, c.isDigit = true) ∧ Nat.ofDigitChars 10 cs 0 = n := by
  simp [readDigits?, and_assoc]

theorem readDigits?_toDigits (n : Nat) : readDigits? (Nat.toDigits 10 n) = some n := by
  rw [readDigits?_eq_some_iff]
  refine ⟨Nat.toDigits_ne_nil, fun c hc => ?_, Nat.ofDigitChars_toDigits (by decide) (by decide)⟩
  exact Nat.isDigit_of_mem_toDigits (by decide) (by decide) hc

theorem readSigned?_of_ne {c : Char} {cs : List Char} (h : c ≠ '-') :
    readSigned? (c :: cs) = (readDigits? (c :: cs)).map fun n => (n : Int) := by
  unfold readSigned?
  split
  · rename_i heq
    exact absurd (List.head_eq_of_cons_eq heq) h
  · rfl

/-- A text that starts with a digit has no sign. -/
theorem readSigned?_of_isDigit {c : Char} {cs : List Char} (h : c.isDigit = true) :
    readSigned? (c :: cs) = (readDigits? (c :: cs)).map fun n => (n : Int) := by
  refine readSigned?_of_ne ?_
  rintro rfl
  exact absurd h (by decide)

theorem readSigned?_toDigits (n : Nat) : readSigned? (Nat.toDigits 10 n) = some (n : Int) := by
  have hr := readDigits?_toDigits n
  cases hd : Nat.toDigits 10 n with
  | nil => exact absurd hd Nat.toDigits_ne_nil
  | cons c cs =>
    have hc : c.isDigit = true :=
      Nat.isDigit_of_mem_toDigits (b := 10) (n := n) (by decide) (by decide) (by simp [hd])
    rw [hd] at hr
    rw [readSigned?_of_isDigit hc, hr]
    rfl

theorem read?_ofInt (i : Int) : read? (ofInt i) = some i := by
  unfold read? ofInt ofNat
  split
  · simp only [String.toList_append, String.toList_ofList]
    rw [show "-".toList = ['-'] from rfl]
    simp only [List.singleton_append, readSigned?, readDigits?_toDigits]
    show some (-(i.natAbs : Int)) = some i
    exact congrArg some (by omega)
  · simp only [String.toList_ofList, readSigned?_toDigits, Option.some.injEq]
    omega

end ExprLang.Decimal
