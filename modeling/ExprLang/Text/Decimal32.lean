import ExprLang.Text.Decimal

/-!
# Decimal text of 32-bit integers

* `fit?` — a number as a 32-bit integer, if it is one.
* `parse?` — reads an optional sign of either kind and digits.  The digits are added up from left to
  right within 32 bits, so a number that is too large is noticed on the way.
* `signed` — a natural number or its opposite.

Principal result: `parseDigits?_eq_fit?` — what is noticed on the way is whether the whole number
fits, however many zeros stand in front.
-/

set_option autoImplicit false

namespace ExprLang.Decimal

def fit? (i : Int) : Option Int32 :=
  if Int32.minValue.toInt ≤ i ∧ i ≤ Int32.maxValue.toInt then some (Int32.ofInt i) else none

def digitValue (c : Char) : Nat := c.toNat - '0'.toNat

def signed (negative : Bool) (n : Nat) : Int := if negative then -(n : Int) else n

/-- Puts a digit behind a number.  Neither step may leave the range. -/
def pushDigit? (negative : Bool) (n : Int32) (c : Char) : Option Int32 :=
  if c.isDigit then do
    let shifted ← fit? (n.toInt * 10)
    fit? (shifted.toInt + signed negative (digitValue c))
  else none

/-- Below zero the digits are counted downwards, for there is one more number on that side. -/
def parseDigits? (negative : Bool) (cs : List Char) : Option Int32 :=
  if cs = [] then none else cs.foldlM (pushDigit? negative) 0

def parse? : List Char → Option Int32
  | '-' :: cs => parseDigits? true cs
  | '+' :: cs => parseDigits? false cs
  | cs => parseDigits? false cs

/-! ## Laws -/

theorem fit?_eq_some_iff {i : Int} {n : Int32} : fit? i = some n ↔ n.toInt = i := by
  unfold fit?
  split
  · rename_i h
    rw [Option.some.injEq]
    constructor
    · rintro rfl
      exact Int32.toInt_ofInt_of_le h.1 (Int.lt_add_one_of_le h.2)
    · rintro rfl
      exact Int32.ofInt_toInt n
  · rename_i h
    refine ⟨nofun, ?_⟩
    rintro rfl
    exact absurd ⟨n.minValue_le_toInt, n.toInt_le⟩ h

theorem fit?_eq_none_iff {i : Int} : fit? i = none ↔ i < -2147483648 ∨ 2147483647 < i := by
  have hmin : Int32.minValue.toInt = -2147483648 := rfl
  have hmax : Int32.maxValue.toInt = 2147483647 := rfl
  rw [fit?, hmin, hmax]
  split <;> simp <;> omega

/-- The opposite numbers leave the range in the same way. -/
theorem fit?_signed_eq_none {negative : Bool} {m n : Nat} (h : fit? (signed negative m) = none)
    (hmn : m ≤ n) : fit? (signed negative n) = none := by
  rw [fit?_eq_none_iff] at h ⊢
  cases negative with
  | true => simp only [signed, if_true] at h ⊢; omega
  | false => simp only [signed, Bool.false_eq_true, if_false] at h ⊢; omega

theorem pushDigit?_eq_fit? {negative : Bool} {n : Int32} {m : Nat} {c : Char}
    (hc : c.isDigit = true) (hn : n.toInt = signed negative m) :
    pushDigit? negative n c = fit? (signed negative (10 * m + digitValue c)) := by
  have hshift : n.toInt * 10 = signed negative (10 * m) := by
    rw [hn]
    cases negative <;> simp [signed] <;> omega
  have hsum : signed negative (10 * m) + signed negative (digitValue c) =
      signed negative (10 * m + digitValue c) := by
    cases negative with
    | true => simp only [signed, if_true]; omega
    | false => simp only [signed, Bool.false_eq_true, if_false]; omega
  rw [pushDigit?, if_pos hc, hshift]
  cases hfit : fit? (signed negative (10 * m)) with
  | none => exact (fit?_signed_eq_none hfit (Nat.le_add_right _ _)).symm
  | some shifted =>
    rw [← hsum, ← fit?_eq_some_iff.mp hfit]
    rfl

theorem le_ofDigitChars (cs : List Char) (m : Nat) : m ≤ Nat.ofDigitChars 10 cs m := by
  induction cs generalizing m with
  | nil => exact Nat.le_refl m
  | cons c cs ih =>
    rw [Nat.ofDigitChars_cons]
    exact Nat.le_trans (by omega) (ih _)

/-- Once the number is too large, further digits do not make it fit again. -/
theorem foldlM_pushDigit?_eq_fit? {negative : Bool} {cs : List Char} {n : Int32} {m : Nat}
    (hcs : ∀ c ∈ cs, c.isDigit = true) (hn : n.toInt = signed negative m) :
    cs.foldlM (pushDigit? negative) n = fit? (signed negative (Nat.ofDigitChars 10 cs m)) := by
  induction cs generalizing n m with
  | nil => exact (fit?_eq_some_iff.mpr hn).symm
  | cons c cs ih =>
    rw [List.forall_mem_cons] at hcs
    rw [List.foldlM_cons, pushDigit?_eq_fit? hcs.1 hn, Nat.ofDigitChars_cons]
    cases hfit : fit? (signed negative (10 * m + digitValue c)) with
    | none => exact (fit?_signed_eq_none hfit (le_ofDigitChars cs _)).symm
    | some next => exact ih hcs.2 (fit?_eq_some_iff.mp hfit)

/-- **Digit by digit, exactly the numbers that fit are read.** -/
theorem parseDigits?_eq_fit? {cs : List Char} (negative : Bool) (hne : cs ≠ [])
    (hcs : ∀ c ∈ cs, c.isDigit = true) :
    parseDigits? negative cs = fit? (signed negative (Nat.ofDigitChars 10 cs 0)) := by
  rw [parseDigits?, if_neg hne]
  exact foldlM_pushDigit?_eq_fit? hcs (by cases negative <;> rfl)

/-- A text that starts with a digit has no sign. -/
theorem parse?_of_isDigit {c : Char} {cs : List Char} (h : c.isDigit = true) :
    parse? (c :: cs) = parseDigits? false (c :: cs) := by
  unfold parse?
  split
  · rename_i heq
    rw [List.head_eq_of_cons_eq heq] at h
    exact absurd h (by decide)
  · rename_i heq
    rw [List.head_eq_of_cons_eq heq] at h
    exact absurd h (by decide)
  · rfl

end ExprLang.Decimal
