import Mathlib.Data.Nat.Digits.Defs
import ExprLang.Eval.Cast

/-!
# Texts of numbers

Which strings stand for a number, said without the way they are read: by their characters and by the
place of each digit.

* `Decimal.placeValue` — what a row of digits stands for.
* `Decimal.Spells` — a string stands for an integer.
* `Decimal.Malformed` — what keeps a string from standing for any.

Principal results: `Decimal.read?_eq_some_iff` — reading finds what a string stands for;
`int32OfText?_eq_some_iff`; `cast_text_to_int`.
-/

set_option autoImplicit false

namespace ExprLang

namespace Decimal

/-! ## Rows of digits -/

/-- The last digit counts ones, the one before it tens, and so on. -/
def placeValue (digits : List Char) : Nat := Nat.ofDigits 10 (digits.map digitValue).reverse

theorem ofDigitChars_eq_placeValue (cs : List Char) : Nat.ofDigitChars 10 cs 0 = placeValue cs := by
  induction cs with
  | nil => rfl
  | cons c cs ih =>
    have hplace : placeValue (c :: cs) = placeValue cs + 10 ^ cs.length * digitValue c := by
      rw [placeValue, List.map_cons, Nat.ofDigits_reverse_cons, List.length_map, placeValue]
    have hread : Nat.ofDigitChars 10 (c :: cs) 0 = Nat.ofDigitChars 10 cs (digitValue c) := by
      rw [Nat.ofDigitChars_cons, Nat.mul_zero, Nat.zero_add, digitValue]
    rw [hread, Nat.ofDigitChars_eq_ofDigitChars_zero, ih, hplace, Nat.add_comm]

/-- `f` puts the sign in front. -/
theorem map_readDigits?_eq_some_iff {cs : List Char} {f : Int → Int} {i : Int} :
    (readDigits? cs : Option Int).map f = some i ↔
      cs ≠ [] ∧ (∀ c ∈ cs, c.isDigit = true) ∧ f (placeValue cs) = i := by
  rw [← ofDigitChars_eq_placeValue]
  constructor
  · intro h
    obtain ⟨_, hcast, hi⟩ := Option.map_eq_some_iff.mp h
    obtain ⟨n, hn, hnat⟩ := Option.bind_eq_some_iff.mp hcast
    cases hnat
    obtain ⟨hne, hdigits, rfl⟩ := readDigits?_eq_some_iff.mp hn
    exact ⟨hne, hdigits, hi⟩
  · rintro ⟨hne, hdigits, rfl⟩
    rw [readDigits?_eq_some_iff.mpr ⟨hne, hdigits, rfl⟩]
    rfl

/-! ## What a text stands for -/

/-- One or more ASCII digits, which may start with zeros; one minus sign may stand in front. -/
inductive Spells (s : String) : Int → Prop
  | plain {digits : List Char} :
      s.toList = digits → digits ≠ [] → (∀ c ∈ digits, c.isDigit = true) →
      Spells s (placeValue digits)
  | minus {digits : List Char} :
      s.toList = '-' :: digits → digits ≠ [] → (∀ c ∈ digits, c.isDigit = true) →
      Spells s (-(placeValue digits))

/-- **Reading finds what a text stands for.** -/
theorem read?_eq_some_iff {s : String} {i : Int} : read? s = some i ↔ Spells s i := by
  rw [read?]
  constructor
  · intro h
    unfold readSigned? at h
    split at h
    · rename_i cs hcs
      obtain ⟨hne, hdigits, rfl⟩ := map_readDigits?_eq_some_iff.mp h
      exact .minus hcs hne hdigits
    · obtain ⟨hne, hdigits, rfl⟩ := map_readDigits?_eq_some_iff.mp h
      exact .plain rfl hne hdigits
  · intro h
    cases h with
    | minus hs hne hdigits =>
      rw [hs, readSigned?]
      exact map_readDigits?_eq_some_iff.mpr ⟨hne, hdigits, rfl⟩
    | @plain digits hs hne hdigits =>
      obtain ⟨c, cs, rfl⟩ := List.exists_cons_of_ne_nil hne
      rw [hs, readSigned?_of_isDigit (hdigits c List.mem_cons_self)]
      exact map_readDigits?_eq_some_iff.mpr ⟨hne, hdigits, rfl⟩

theorem Spells.unique {s : String} {i j : Int} (hi : Spells s i) (hj : Spells s j) : i = j := by
  rw [← read?_eq_some_iff] at hi hj
  exact Option.some.inj (hi.symm.trans hj)

/-- A plus sign, a blank and a digit of another script are foreign characters. -/
inductive Malformed (s : String) : Prop
  | empty : s = "" → Malformed s
  | lone : s = "-" → Malformed s
  | foreign {c : Char} : c ∈ s.toList → c.isDigit = false → c ≠ '-' → Malformed s
  | inner : '-' ∈ s.toList.tail → Malformed s

theorem Malformed.not_spells {s : String} (h : Malformed s) (i : Int) : ¬ Spells s i := by
  have hminus : ¬ '-'.isDigit = true := by decide
  intro hs
  cases hs with
  | plain hchars hne hdigits =>
    cases h with
    | empty heq => exact hne (by rw [← hchars, heq]; rfl)
    | lone heq => exact hminus (hdigits '-' (by rw [← hchars, heq]; decide))
    | foreign hc hnot _ =>
      rw [hdigits _ (hchars ▸ hc)] at hnot
      cases hnot
    | inner hin => exact hminus (hdigits '-' (hchars ▸ List.mem_of_mem_tail hin))
  | minus hchars hne hdigits =>
    cases h with
    | empty heq =>
      rw [heq] at hchars
      cases hchars
    | lone heq =>
      rw [heq] at hchars
      exact hne (List.tail_eq_of_cons_eq hchars).symm
    | foreign hc hnot hsign =>
      rw [hchars] at hc
      rw [hdigits _ ((List.mem_cons.mp hc).resolve_left hsign)] at hnot
      cases hnot
    | inner hin =>
      rw [hchars] at hin
      exact hminus (hdigits '-' hin)

end Decimal

/-! ## Casts -/

/-- Of the numbers that texts stand for, those of 32 bits are accepted. -/
theorem int32OfText?_eq_some_iff {s : String} {n : Int32} :
    int32OfText? s = some n ↔ Decimal.Spells s n.toInt := by
  rw [int32OfText?_eq, Option.bind_eq_some_iff]
  constructor
  · rintro ⟨i, hi, hn⟩
    rw [Decimal.fit?_eq_some_iff.mp hn]
    exact Decimal.read?_eq_some_iff.mp hi
  · intro h
    exact ⟨n.toInt, Decimal.read?_eq_some_iff.mpr h, Decimal.fit?_eq_some_iff.mpr rfl⟩

theorem cast_text_to_int_eq_ok_iff {s : String} {v : Value} :
    cast (.string s) .int = .ok v ↔ ∃ n : Int32, v = .int n ∧ Decimal.Spells s n.toInt := by
  simp only [← int32OfText?_eq_some_iff]
  rw [cast, cast?_int_string]
  cases int32OfText? s with
  | none => simp
  | some n => simp [eq_comm]

theorem cast_text_to_int_of_none {s : String} (h : ∀ n : Int32, ¬ Decimal.Spells s n.toInt) :
    cast (.string s) .int = .error (.castFailure (.string s) .int) := by
  have hnone : int32OfText? s = none :=
    Option.eq_none_iff_forall_ne_some.mpr fun n hn => h n (int32OfText?_eq_some_iff.mp hn)
  rw [cast, cast?_int_string, hnone]
  rfl

/-! ## Main theorem -/

/-- **Exactly the decimal texts of 32-bit integers can be cast to integers.**  The cast gives the
number that the text stands for; every other text is refused, and the error carries it unchanged. -/
theorem cast_text_to_int (s : String) :
    (∀ i : Int, (∃ n : Int32, n.toInt = i ∧ cast (.string s) .int = .ok (.int n)) ↔
      Decimal.Spells s i ∧ -2147483648 ≤ i ∧ i ≤ 2147483647) ∧
    ((¬ ∃ i, Decimal.Spells s i ∧ -2147483648 ≤ i ∧ i ≤ 2147483647) →
      cast (.string s) .int = .error (.castFailure (.string s) .int)) ∧
    (Decimal.Malformed s → cast (.string s) .int = .error (.castFailure (.string s) .int)) := by
  have hrange : ∀ n : Int32, -2147483648 ≤ n.toInt ∧ n.toInt ≤ 2147483647 :=
    fun n => ⟨n.minValue_le_toInt, n.toInt_le⟩
  refine ⟨fun i => ⟨?_, ?_⟩, fun hnone => ?_, fun hbad => ?_⟩
  · rintro ⟨n, rfl, hn⟩
    obtain ⟨m, hm, hs⟩ := cast_text_to_int_eq_ok_iff.mp hn
    cases hm
    exact ⟨hs, hrange n⟩
  · rintro ⟨hs, hlow, hhigh⟩
    have hn : (Int32.ofInt i).toInt = i :=
      Int32.toInt_ofInt_of_le hlow (Int.lt_add_one_of_le hhigh)
    refine ⟨Int32.ofInt i, hn, cast_text_to_int_eq_ok_iff.mpr ⟨_, rfl, ?_⟩⟩
    rw [hn]
    exact hs
  · exact cast_text_to_int_of_none fun n hn => hnone ⟨n.toInt, hn, hrange n⟩
  · exact cast_text_to_int_of_none fun n => hbad.not_spells n.toInt

/-- Zeros in front of the lowest number; the number behind the highest one; a sign that only the
parser takes, and a digit of another script. -/
theorem cast_text_to_int_ends :
    (∃ n : Int32, n.toInt = -2147483648 ∧
      cast (.string "-0002147483648") .int = .ok (.int n)) ∧
    Decimal.Spells "2147483648" 2147483648 ∧
    cast (.string "2147483648") .int = .error (.castFailure (.string "2147483648") .int) ∧
    Decimal.Malformed "+5" ∧
    cast (.string "+5") .int = .error (.castFailure (.string "+5") .int) ∧
    Decimal.Malformed "1\u0663" ∧
    cast (.string "1\u0663") .int = .error (.castFailure (.string "1\u0663") .int) := by
  have hlow : Decimal.Spells "-0002147483648" (-2147483648) :=
    @Decimal.Spells.minus _ "0002147483648".toList rfl (by decide) (List.all_eq_true.mp rfl)
  have hbeyond : Decimal.Spells "2147483648" 2147483648 :=
    @Decimal.Spells.plain _ "2147483648".toList rfl (by decide) (List.all_eq_true.mp rfl)
  have hplus : Decimal.Malformed "+5" :=
    @Decimal.Malformed.foreign _ '+' (by decide) rfl (by decide)
  have hscript : Decimal.Malformed "1\u0663" :=
    @Decimal.Malformed.foreign _ '\u0663' (by decide) rfl (by decide)
  have hnone : ¬ ∃ i, Decimal.Spells "2147483648" i ∧ -2147483648 ≤ i ∧ i ≤ 2147483647 := by
    rintro ⟨i, hi, -, hhigh⟩
    cases hi.unique hbeyond
    exact absurd hhigh (by decide)
  exact ⟨((cast_text_to_int "-0002147483648").1 (-2147483648)).mpr ⟨hlow, by decide, by decide⟩,
    hbeyond, (cast_text_to_int "2147483648").2.1 hnone, hplus, (cast_text_to_int "+5").2.2 hplus,
    hscript, (cast_text_to_int "1\u0663").2.2 hscript⟩

end ExprLang
