import Mathlib.Data.Rat.Floor
import ExprLang.Eval.Eval

/-!
# Division with remainder

Quotient and remainder of two integers belong together for all signs of the operands: what the
quotient leaves over is the remainder.  The one quotient that does not fit in 32 bits wraps around,
and then too.

* `towardZero` — a fraction with what is behind the point cut off.

Principal results: `towardZero_div` — cutting off an exact quotient is division of integers that
truncates; `div_mul_add_mod`; `quotient_fits_remainder`.
-/

set_option autoImplicit false

namespace ExprLang

/-! ## Integers -/

/-- Of the two integers next to a fraction the one on the side of zero. -/
def towardZero (q : ℚ) : Int := if 0 ≤ q then ⌊q⌋ else ⌈q⌉

theorem towardZero_neg (q : ℚ) : towardZero (-q) = -towardZero q := by
  rcases lt_trichotomy q 0 with hq | rfl | hq
  · rw [towardZero, towardZero, if_pos (by linarith), if_neg (by linarith), Int.floor_neg]
  · simp [towardZero]
  · rw [towardZero, towardZero, if_neg (by linarith), if_pos hq.le, Int.ceil_neg]

theorem towardZero_div_natCast (i : Int) (n : Nat) : towardZero (i / n) = i.tdiv n := by
  rcases le_or_gt 0 i with hi | hi
  · have hq : (0 : ℚ) ≤ i / n := by positivity
    rw [towardZero, if_pos hq, Rat.floor_intCast_div_natCast, Int.tdiv_eq_ediv_of_nonneg hi]
  · have hq : (0 : ℚ) ≤ (-i : Int) / n := by
      have : 0 ≤ -i := by omega
      positivity
    have hopposite : towardZero ((-i : Int) / n) = (-i).tdiv n := by
      rw [towardZero, if_pos hq, Rat.floor_intCast_div_natCast,
        Int.tdiv_eq_ediv_of_nonneg (by omega)]
    rw [Int.cast_neg, neg_div, towardZero_neg, Int.neg_tdiv] at hopposite
    exact neg_injective hopposite

/-- **An exact quotient with its fraction cut off is a truncated quotient.** -/
theorem towardZero_div (i j : Int) : towardZero (i / j) = i.tdiv j := by
  obtain ⟨n, rfl | rfl⟩ := j.eq_nat_or_neg
  · exact towardZero_div_natCast i n
  · rw [Int.cast_neg, div_neg, towardZero_neg, Int.tdiv_neg]
    exact congrArg Neg.neg (towardZero_div_natCast i n)

/-! ## Integers of 32 bits -/

/-- What the quotient leaves over is the remainder, modulo 2 ^ 32 also where the quotient wraps. -/
theorem div_mul_add_mod (l r : Int32) : l / r * r + l % r = l := by
  have hdiv : Int32.ofInt (l.toInt.tdiv r.toInt) = l / r := by
    rw [Int32.ofInt_eq_iff_bmod_eq_toInt, Int32.toInt_div]
  have hmod : Int32.ofInt (l.toInt.tmod r.toInt) = l % r := by
    rw [← Int32.toInt_mod, Int32.ofInt_toInt]
  calc l / r * r + l % r
    _ = Int32.ofInt (l.toInt.tdiv r.toInt * r.toInt + l.toInt.tmod r.toInt) := by
        rw [Int32.ofInt_add, Int32.ofInt_mul, Int32.ofInt_toInt, hdiv, hmod]
    _ = l := by rw [Int.tdiv_mul_add_tmod, Int32.ofInt_toInt]

theorem toInt_ne_zero {r : Int32} (hr : r ≠ 0) : r.toInt ≠ 0 :=
  fun h => hr (Int32.toInt_inj.mp h)

theorem abs_toInt_mod_lt (l : Int32) {r : Int32} (hr : r ≠ 0) : |(l % r).toInt| < |r.toInt| := by
  have hpos : 0 < r.toInt.natAbs := Int.natAbs_pos.mpr (toInt_ne_zero hr)
  rw [Int32.toInt_mod, Int.abs_eq_natAbs, Int.abs_eq_natAbs, Int.natAbs_tmod]
  exact_mod_cast Nat.mod_lt _ hpos

/-- A remainder has the sign of the dividend. -/
theorem mod_eq_zero_or_sign (l r : Int32) : l % r = 0 ∨ (l % r).toInt.sign = l.toInt.sign := by
  rw [Int32.toInt_mod, Int.sign_tmod]
  split
  · rename_i h
    refine .inl (Int32.toInt_inj.mp ?_)
    rw [Int32.toInt_mod, Int.tmod_eq_zero_of_dvd h]
    rfl
  · exact .inr rfl

/-- Only the opposite of the lowest number does not fit. -/
theorem toInt_div_eq_towardZero {l r : Int32} (h : ¬ (l = Int32.minValue ∧ r = -1)) :
    (l / r).toInt = towardZero (l.toInt / r.toInt) := by
  rw [towardZero_div]
  rcases not_and_or.mp h with hl | hr
  · exact Int32.toInt_div_of_ne_left l r hl
  · exact Int32.toInt_div_of_ne_right l r hr

/-! ## Operators -/

theorem BinOp.unlessZero_eq_error_iff {r n : Int32} {e : RunError} :
    unlessZero r e n = .error e ↔ r = 0 := by
  unfold unlessZero
  split <;> simp [*]

theorem BinOp.unlessZero_of_ne {r : Int32} (hr : r ≠ 0) (e : RunError) (n : Int32) :
    unlessZero r e n = .ok (.int n) := if_neg hr

/-- Once both operands have their values, the operator is noted and applied. -/
theorem on_eval_binop {table : FunctionTable} {budget : Nat} {env : Env Value} {left right : Expr}
    {v w : Value} {c c' d : Console} (op : BinOp)
    (hleft : (eval table budget env left).on c = some (.ok v, c'))
    (hright : (eval table budget env right).on c' = some (.ok w, d)) :
    (eval table (budget + 1) env (.binop op left right)).on c =
      some (op.apply v w, d.record (.applying op v w)) := by
  rw [eval, Run.run_bind, hleft]
  simp only [Run.run_bind, hright, Run.run_record, Run.run_ofExcept]

/-! ## Main theorem -/

/-- **Quotient and remainder fit together for all operands.**  Both fail, each with its own error,
just when the divisor is zero.  Otherwise both have values: times the divisor and with the remainder
added, the quotient gives the dividend back; the remainder is nearer to zero than the divisor and has
the sign of the dividend; and the quotient is the exact one without its fraction, but for the one that
has no place among 32-bit integers. -/
theorem quotient_fits_remainder {table : FunctionTable} {budget : Nat} {env : Env Value}
    {left right : Expr} {l r : Int32} {c c' d : Console}
    (hleft : (eval table budget env left).on c = some (.ok (.int l), c'))
    (hright : (eval table budget env right).on c' = some (.ok (.int r), d)) :
    ∃ quotient remainder : Except RunError Value,
      (eval table (budget + 1) env (.binop .div left right)).on c =
        some (quotient, d.record (.applying .div (.int l) (.int r))) ∧
      (eval table (budget + 1) env (.binop .mod left right)).on c =
        some (remainder, d.record (.applying .mod (.int l) (.int r))) ∧
      (quotient = .error .divisionByZero ↔ r = 0) ∧
      (remainder = .error .moduloByZero ↔ r = 0) ∧
      (r ≠ 0 → ∃ q m : Int32, quotient = .ok (.int q) ∧ remainder = .ok (.int m) ∧
        q * r + m = l ∧ |m.toInt| < |r.toInt| ∧ (m = 0 ∨ m.toInt.sign = l.toInt.sign) ∧
        if l = Int32.minValue ∧ r = -1 then q = Int32.minValue ∧ m = 0
        else q.toInt = towardZero (l.toInt / r.toInt)) := by
  have hdiv := on_eval_binop .div hleft hright
  have hmod := on_eval_binop .mod hleft hright
  refine ⟨BinOp.unlessZero r .divisionByZero (l / r), BinOp.unlessZero r .moduloByZero (l % r),
    hdiv, hmod, BinOp.unlessZero_eq_error_iff, BinOp.unlessZero_eq_error_iff, fun hr => ?_⟩
  refine ⟨l / r, l % r, BinOp.unlessZero_of_ne hr _ _, BinOp.unlessZero_of_ne hr _ _,
    div_mul_add_mod l r, abs_toInt_mod_lt l hr, mod_eq_zero_or_sign l r, ?_⟩
  split
  · rename_i h
    obtain ⟨rfl, rfl⟩ := h
    exact ⟨Int32.minValue_div_neg_one, by decide⟩
  · rename_i h
    exact toInt_div_eq_towardZero h

/-- The lowest number has no opposite; a quotient with a fraction is cut off towards zero, and the
remainder is negative as well. -/
theorem quotient_fits_remainder_negative :
    ((eval ∅ 2 .empty (.binop .div (.int Int32.minValue) (.int (-1)))).on (.faultless [])).map
      Prod.fst = some (.ok (.int Int32.minValue)) ∧
    ((eval ∅ 2 .empty (.binop .div (.int (-7)) (.int 2))).on (.faultless [])).map Prod.fst =
      some (.ok (.int (-3))) ∧
    ((eval ∅ 2 .empty (.binop .mod (.int (-7)) (.int 2))).on (.faultless [])).map Prod.fst =
      some (.ok (.int (-1))) := by
  have hliteral : ∀ n : Int32,
      (eval ∅ 1 .empty (.int n)).on (.faultless []) = some (.ok (.int n), .faultless []) :=
    fun n => rfl
  obtain ⟨_, _, hlowest, -, -, -, hvalues⟩ :=
    quotient_fits_remainder (hliteral Int32.minValue) (hliteral (-1))
  obtain ⟨q, m, rfl, -, -, -, -, hq⟩ := hvalues (by decide)
  rw [if_pos ⟨rfl, rfl⟩] at hq
  obtain rfl := hq.1
  obtain ⟨_, _, hdiv, hmod, -, -, hvalues'⟩ :=
    quotient_fits_remainder (hliteral (-7)) (hliteral 2)
  obtain ⟨q', m', rfl, rfl, hsum, -, -, hq'⟩ := hvalues' (by decide)
  have hexact : q'.toInt = -3 := by
    rw [if_neg (by decide), towardZero_div] at hq'
    exact hq'
  obtain rfl : q' = -3 := Int32.toInt_inj.mp hexact
  obtain rfl : m' = -1 := by grind
  rw [hlowest, hdiv, hmod]
  exact ⟨rfl, rfl, rfl⟩

end ExprLang
