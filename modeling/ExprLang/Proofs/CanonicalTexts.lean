import ExprLang.Proofs.DecimalTexts
import ExprLang.Proofs.Quotation

/-!
# Canonical texts of numbers

Many texts stand for one number, for zeros may stand in front, and zero may have a sign.  One of
them is written, and it can be told from the others by its characters.

* `Decimal.Canonical` — zero, or digits that start with another one than zero, with or without a
  sign.

Principal results: `Decimal.canonical_ofInt` — what is written is canonical;
`Decimal.Canonical.eq_ofInt` — of the texts of a number no other one is; `casts_round_trip`.
-/

set_option autoImplicit false

namespace ExprLang

namespace Decimal

/-- The digit zero, or a digit from 1 to 9 and any further digits, which a minus sign may precede. -/
inductive Canonical (s : String) : Prop
  | zero : s = "0" → Canonical s
  | plain {c : Char} {cs : List Char} :
      s.toList = c :: cs → c.isDigit = true → c ≠ '0' → (∀ d ∈ cs, d.isDigit = true) →
      Canonical s
  | minus {c : Char} {cs : List Char} :
      s.toList = '-' :: c :: cs → c.isDigit = true → c ≠ '0' → (∀ d ∈ cs, d.isDigit = true) →
      Canonical s

/-! ## Digits -/

section Digits

variable {c : Char} {cs : List Char} {n : Nat}

theorem toNat_eq_of_isDigit (hc : c.isDigit = true) : c.toNat = 48 + digitValue c := by
  have hlow : 48 ≤ c.toNat := (Char.isDigit_iff_toNat.mp hc).1
  have hvalue : digitValue c = c.toNat - 48 := rfl
  omega

theorem digitValue_lt (hc : c.isDigit = true) : digitValue c < 10 := by
  have hhigh : c.toNat ≤ 57 := (Char.isDigit_iff_toNat.mp hc).2
  have hchar := toNat_eq_of_isDigit hc
  omega

theorem digitValue_pos (hc : c.isDigit = true) (hzero : c ≠ '0') : 0 < digitValue c := by
  have hchar := toNat_eq_of_isDigit hc
  have hne : c.toNat ≠ 48 := fun h => hzero (Char.toNat_inj.mp h)
  omega

theorem digitChar_digitValue (hc : c.isDigit = true) : Nat.digitChar (digitValue c) = c := by
  rw [← Char.toNat_inj, Nat.toNat_digitChar_of_lt_ten (digitValue_lt hc), toNat_eq_of_isDigit hc]

theorem toDigits_push (hn : 0 < n) (hc : c.isDigit = true) :
    Nat.toDigits 10 (10 * n + digitValue c) = Nat.toDigits 10 n ++ [c] := by
  have hlt : digitValue c < 10 := digitValue_lt hc
  rw [← Nat.toDigits_append_toDigits (by decide) hn hlt, Nat.toDigits_of_lt_base hlt,
    digitChar_digitValue hc]

/-- Digits behind a number that is not zero are written as they were read. -/
theorem toDigits_ofDigitChars_of_pos (hn : 0 < n) (hcs : ∀ c ∈ cs, c.isDigit = true) :
    Nat.toDigits 10 (Nat.ofDigitChars 10 cs n) = Nat.toDigits 10 n ++ cs := by
  induction cs generalizing n with
  | nil => rw [List.append_nil, Nat.ofDigitChars_nil]
  | cons c cs ih =>
    rw [List.forall_mem_cons] at hcs
    have hpush := toDigits_push hn hcs.1
    have hpos : 0 < 10 * n + digitValue c := by omega
    calc Nat.toDigits 10 (Nat.ofDigitChars 10 (c :: cs) n)
        = Nat.toDigits 10 (Nat.ofDigitChars 10 cs (10 * n + digitValue c)) := rfl
      _ = Nat.toDigits 10 (10 * n + digitValue c) ++ cs := ih hpos hcs.2
      _ = Nat.toDigits 10 n ++ c :: cs := by rw [hpush, List.append_assoc, List.singleton_append]

theorem placeValue_pos (hc : c.isDigit = true) (hzero : c ≠ '0') : 0 < placeValue (c :: cs) := by
  have hread : Nat.ofDigitChars 10 (c :: cs) 0 =
      Nat.ofDigitChars 10 cs (10 * 0 + digitValue c) := rfl
  have hpos := digitValue_pos hc hzero
  have hle := le_ofDigitChars cs (10 * 0 + digitValue c)
  rw [← ofDigitChars_eq_placeValue, hread]
  omega

theorem toList_ofNat_placeValue (hc : c.isDigit = true) (hzero : c ≠ '0')
    (hcs : ∀ d ∈ cs, d.isDigit = true) : (ofNat (placeValue (c :: cs))).toList = c :: cs := by
  have hone : Nat.toDigits 10 (digitValue c) = [c] := by
    rw [Nat.toDigits_of_lt_base (digitValue_lt hc), digitChar_digitValue hc]
  rw [ofNat, String.toList_ofList, ← ofDigitChars_eq_placeValue, Nat.ofDigitChars_cons,
    Nat.mul_zero, Nat.zero_add]
  show Nat.toDigits 10 (Nat.ofDigitChars 10 cs (digitValue c)) = c :: cs
  rw [toDigits_ofDigitChars_of_pos (digitValue_pos hc hzero) hcs, hone, List.singleton_append]

/-- No number but zero is written with a zero in front. -/
theorem exists_toDigits_eq_cons (hn : 0 < n) :
    ∃ c cs, Nat.toDigits 10 n = c :: cs ∧ c ≠ '0' := by
  induction n using Nat.strongRecOn with
  | ind n ih =>
    by_cases hlt : n < 10
    · refine ⟨Nat.digitChar n, [], Nat.toDigits_of_lt_base hlt, fun hzero => ?_⟩
      have hchar : '0'.toNat = 48 + n := by rw [← hzero, Nat.toNat_digitChar_of_lt_ten hlt]
      have hfortyEight : '0'.toNat = 48 := rfl
      omega
    · obtain ⟨c, cs, hcs, hc⟩ := ih (n / 10) (by omega) (by omega)
      refine ⟨c, cs ++ [(n % 10).digitChar], ?_, hc⟩
      rw [Nat.toDigits_eq_if (by decide), if_neg hlt, hcs, List.cons_append]

end Digits

/-! ## Written texts -/

section Written

variable {s t : String} {i : Int}

/-- **What is written is canonical.** -/
theorem canonical_ofInt (i : Int) : Canonical (ofInt i) := by
  by_cases hzero : i = 0
  · subst hzero
    exact .zero rfl
  · obtain ⟨c, cs, hcs, hc⟩ := exists_toDigits_eq_cons (Int.natAbs_pos.mpr hzero)
    have htext : (ofNat i.natAbs).toList = c :: cs := by rw [ofNat, String.toList_ofList, hcs]
    have hdigits : ∀ d ∈ c :: cs, d.isDigit = true :=
      fun d hd => isDigit_of_mem_ofNat (htext ▸ hd)
    rw [List.forall_mem_cons] at hdigits
    unfold ofInt
    split
    · refine .minus ?_ hdigits.1 hc hdigits.2
      rw [String.toList_append, htext]
      rfl
    · exact .plain htext hdigits.1 hc hdigits.2

theorem Spells.of_ofInt (i : Int) : Spells (ofInt i) i :=
  read?_eq_some_iff.mp (read?_ofInt i)

/-- **Of the texts of a number only the one that is written is canonical.** -/
theorem Canonical.eq_ofInt (hs : Canonical s) (hi : Spells s i) : s = ofInt i := by
  cases hs with
  | zero heq =>
    subst heq
    rw [hi.unique (Spells.of_ofInt 0)]
    rfl
  | @plain c cs htext hc hzero hcs =>
    have hdigits : ∀ d ∈ c :: cs, d.isDigit = true := List.forall_mem_cons.mpr ⟨hc, hcs⟩
    have hvalue : i = placeValue (c :: cs) :=
      hi.unique (.plain htext (List.cons_ne_nil c cs) hdigits)
    have hnonneg : ¬ i < 0 := by omega
    have habs : i.natAbs = placeValue (c :: cs) := by omega
    rw [← String.toList_inj, ofInt, if_neg hnonneg, habs, toList_ofNat_placeValue hc hzero hcs,
      htext]
  | @minus c cs htext hc hzero hcs =>
    have hdigits : ∀ d ∈ c :: cs, d.isDigit = true := List.forall_mem_cons.mpr ⟨hc, hcs⟩
    have hvalue : i = -(placeValue (c :: cs)) :=
      hi.unique (.minus htext (List.cons_ne_nil c cs) hdigits)
    have hpos : 0 < placeValue (c :: cs) := placeValue_pos hc hzero
    have hneg : i < 0 := by omega
    have habs : i.natAbs = placeValue (c :: cs) := by omega
    rw [← String.toList_inj, ofInt, if_pos hneg, String.toList_append, habs,
      toList_ofNat_placeValue hc hzero hcs, htext]
    rfl

theorem Spells.ofInt_eq_iff (h : Spells s i) : ofInt i = s ↔ Canonical s :=
  ⟨fun heq => heq ▸ canonical_ofInt i, fun hs => (hs.eq_ofInt h).symm⟩

end Written

end Decimal

/-! ## Main theorem -/

/-- **Integers and their texts are cast to each other without loss.**  Every integer comes back from
its text.  A text that can be cast comes back from its integer if and only if it is canonical, and
there are no two canonical texts of one integer. -/
theorem casts_round_trip :
    (∀ n : Int32, (do cast (← cast (.int n) .string) .int) = Except.ok (Value.int n)) ∧
    (∀ (s : String) (v : Value), cast (.string s) .int = .ok v →
      (cast v .string = .ok (.string s) ↔ Decimal.Canonical s)) ∧
    ∀ (s t : String) (v : Value), Decimal.Canonical s → Decimal.Canonical t →
      cast (.string s) .int = .ok v → cast (.string t) .int = .ok v → s = t := by
  have hwrite : ∀ n : Int32, cast (.int n) .string = .ok (.string (Decimal.ofInt n.toInt)) :=
    fun _ => rfl
  refine ⟨fun n => ?_, fun s v hs => ?_, fun s t v hcs hct hs ht => ?_⟩
  · rw [hwrite]
    exact cast_text_to_int_eq_ok_iff.mpr ⟨n, rfl, .of_ofInt n.toInt⟩
  · obtain ⟨n, rfl, hn⟩ := cast_text_to_int_eq_ok_iff.mp hs
    rw [hwrite, ← hn.ofInt_eq_iff]
    simp
  · obtain ⟨n, rfl, hn⟩ := cast_text_to_int_eq_ok_iff.mp hs
    obtain ⟨m, hm, ht⟩ := cast_text_to_int_eq_ok_iff.mp ht
    cases hm
    rw [hcs.eq_ofInt hn, hct.eq_ofInt ht]

/-- The lowest integer, and two texts of another one. -/
theorem casts_round_trip_seven :
    (do cast (← cast (.int Int32.minValue) .string) .int) =
      Except.ok (Value.int Int32.minValue) ∧
    cast (.string "-007") .int = .ok (.int (-7)) ∧ ¬ Decimal.Canonical "-007" ∧
    cast (.string "-7") .int = .ok (.int (-7)) ∧ Decimal.Canonical "-7" ∧
    cast (.int (-7)) .string = .ok (.string "-7") ∧
    ∀ t, Decimal.Canonical t → cast (.string t) .int = .ok (.int (-7)) → t = "-7" := by
  obtain ⟨hback, hcanonical, hone⟩ := casts_round_trip
  have hpadded : cast (.string "-007") .int = .ok (.int (-7)) := rfl
  have hshort : cast (.string "-7") .int = .ok (.int (-7)) := rfl
  have hwritten : cast (.int (-7)) .string = .ok (.string "-7") := rfl
  have hnot : ¬ Decimal.Canonical "-007" := by
    intro h
    have hsame := hwritten.symm.trans ((hcanonical "-007" _ hpadded).mpr h)
    exact absurd hsame (by simp)
  have hcan : Decimal.Canonical "-7" := (hcanonical "-7" _ hshort).mp hwritten
  exact ⟨hback _, hpadded, hnot, hshort, hcan, hwritten,
    fun t ht hcast => hone t "-7" _ ht hcan hcast hshort⟩

end ExprLang
