import Mathlib.Data.Int.ModEq
import Mathlib.Logic.Function.Basic
import ExprLang.Expr.Scope
import ExprLang.Proofs.Computations
import ExprLang.Proofs.Nodes

/-!
# Wrapping arithmetic

Sums, differences and products wrap around wherever they leave the range, in the middle of an
expression and in values that are bound to a name.  The result is nevertheless what would come out
without a range, brought into it once at the end.

* `Expr.isArithmetic` — the nodes of such an expression.
* `Expr.unbounded?` — its value over the integers, where bound values have no range either.
* `Env.Rounds` — an environment holds what is left of exact values in 32 bits.

Principal results: `BinOp.apply_ofInt` — each operator is one of the integers modulo 2 ^ 32;
`eval_unbounded?` — so is evaluation as a whole; `arithmetic_wraps`.
-/

set_option autoImplicit false

namespace ExprLang

/-! ## Exact values -/

def Value.unbounded? : Value → Option Int
  | .int n => some n.toInt
  | _ => none

def Env.unbounded? (env : Env Value) (x : Name) : Option Int := (env.find? x).bind Value.unbounded?

/-- Of the operators that wrap around. -/
def BinOp.unbounded? : BinOp → Int → Int → Option Int
  | .add, i, j => some (i + j)
  | .sub, i, j => some (i - j)
  | .mul, i, j => some (i * j)
  | _, _, _ => none

namespace Expr

/-- Integers, variables, sums, differences, products and bindings. -/
def isArithmetic : Expr → Bool
  | .lit (.int _) | .var _ | .letIn _ _ _ => true
  | .binop .add _ _ | .binop .sub _ _ | .binop .mul _ _ => true
  | _ => false

/-- The value over the integers, if variables stand for the integers that `σ` says. -/
def unbounded? (σ : Name → Option Int) : Expr → Option Int
  | .lit v => v.unbounded?
  | .var x => σ x
  | .binop op left right => do op.unbounded? (← unbounded? σ left) (← unbounded? σ right)
  | .letIn x bound body => do unbounded? (Function.update σ x (some (← unbounded? σ bound))) body
  | _ => none

/-- Arithmetic has an exact value wherever its variables have one. -/
theorem exists_unbounded? {e : Expr} {σ : Name → Option Int} (he : e.Each (·.isArithmetic))
    (hσ : ∀ x ∈ e.freeVars, ∃ i, σ x = some i) : ∃ i, e.unbounded? σ = some i := by
  induction e using inductionOn generalizing σ with
  | lit v =>
    have hself := (each_iff.mp he).1
    cases v with
    | int n => exact ⟨n.toInt, rfl⟩
    | _ => cases hself
  | var x => exact hσ x (List.mem_singleton.mpr rfl)
  | binop op left right ihl ihr =>
    obtain ⟨hself, hchildren⟩ := each_iff.mp he
    obtain ⟨hleft, hright⟩ := List.forall_mem_append.mp hσ
    obtain ⟨i, hi⟩ := ihl (hchildren left (by simp)) hleft
    obtain ⟨j, hj⟩ := ihr (hchildren right (by simp)) hright
    rw [unbounded?, hi, hj]
    cases op with
    | add => exact ⟨i + j, rfl⟩
    | sub => exact ⟨i - j, rfl⟩
    | mul => exact ⟨i * j, rfl⟩
    | _ => cases hself
  | letIn x bound body ihb ihk =>
    obtain ⟨-, hchildren⟩ := each_iff.mp he
    obtain ⟨i, hi⟩ := ihb (hchildren bound (by simp))
      fun y hy => hσ y (mem_freeVars_letIn.mpr (.inl hy))
    rw [unbounded?, hi]
    refine ihk (hchildren body (by simp)) fun y hy => ?_
    rw [Function.update_apply]
    split
    · exact ⟨i, rfl⟩
    · rename_i hne
      exact hσ y (mem_freeVars_letIn.mpr (.inr ⟨hy, hne⟩))
  | _ => cases (each_iff.mp he).1

end Expr

/-! ## Operators -/

/-- Every number is the same in 32 bits as one number in the range. -/
theorem modEq_toInt_iff {i : Int} {m : Int32} :
    m.toInt ≡ i [ZMOD 4294967296] ↔ m = Int32.ofInt i := by
  constructor
  · intro h
    have hbmod : i.bmod 4294967296 = m.toInt := by
      calc i.bmod 4294967296
          = (i % 4294967296).bmod 4294967296 := (Int.emod_bmod i 4294967296).symm
        _ = (m.toInt % 4294967296).bmod 4294967296 := by rw [h]
        _ = m.toInt.bmod 4294967296 := Int.emod_bmod m.toInt 4294967296
        _ = m.toInt := m.toInt_bmod
    exact ((Int32.ofInt_eq_iff_bmod_eq_toInt i m).mpr hbmod).symm
  · rintro rfl
    have hrange : (Int32.ofInt i).toInt = i.bmod 4294967296 := Int32.toInt_ofInt
    rw [Int.ModEq, hrange]
    exact Int.bmod_emod

theorem BinOp.apply_ofInt {op : BinOp} {i j k : Int} (h : op.unbounded? i j = some k) :
    op.apply (.int (Int32.ofInt i)) (.int (Int32.ofInt j)) = .ok (.int (Int32.ofInt k)) := by
  cases op with
  | add =>
    cases h
    rw [Int32.ofInt_add]
    rfl
  | sub =>
    cases h
    rw [Int32.ofInt_sub]
    rfl
  | mul =>
    cases h
    rw [Int32.ofInt_mul]
    rfl
  | _ => cases h

/-! ## Evaluation -/

/-- Where an exact value is known, the environment holds what is left of it in 32 bits. -/
def Env.Rounds (env : Env Value) (σ : Name → Option Int) : Prop :=
  ∀ x i, σ x = some i → env.find? x = some (.int (Int32.ofInt i))

theorem Env.Rounds.bind {env : Env Value} {σ : Name → Option Int} (h : env.Rounds σ) (x : Name)
    (i : Int) : (env.bind x (.int (Int32.ofInt i))).Rounds (Function.update σ x (some i)) := by
  intro y j hy
  rw [Function.update_apply] at hy
  rw [find?_bind]
  split
  · rename_i hyx
    rw [if_pos hyx] at hy
    cases hy
    rfl
  · rename_i hyx
    rw [if_neg hyx] at hy
    exact h y j hy

theorem Env.rounds_unbounded? (env : Env Value) : env.Rounds env.unbounded? := by
  intro x i hx
  obtain ⟨v, hv, hi⟩ := Option.bind_eq_some_iff.mp hx
  cases v with
  | int n =>
    cases hi
    rw [hv, Int32.ofInt_toInt]
  | _ => cases hi

/-- **Evaluation computes modulo 2 ^ 32.** -/
theorem eval_unbounded? (table : FunctionTable) {n : Nat} {e : Expr} {env : Env Value}
    {σ : Name → Option Int} {i : Int} (henv : env.Rounds σ) (hi : e.unbounded? σ = some i)
    (hn : e.height ≤ n) : (eval table n env e).Computes (.int (Int32.ofInt i)) := by
  induction n generalizing e env σ i with
  | zero =>
    have := e.height_pos
    omega
  | succ n ih =>
    have hchild : ∀ a ∈ e.children, a.height ≤ n := by
      intro a ha
      have := Expr.height_lt_of_mem_children ha
      omega
    cases e with
    | lit v =>
      cases v with
      | int m =>
        cases hi
        rw [eval, Int32.ofInt_toInt]
        exact .pure _
      | _ => cases hi
    | var x => exact .ofOption (henv x i hi) _
    | binop op left right =>
      have hleft := hchild left (by simp)
      have hright := hchild right (by simp)
      obtain ⟨j, hj, hi⟩ := Option.bind_eq_some_iff.mp hi
      obtain ⟨k, hk, hop⟩ := Option.bind_eq_some_iff.mp hi
      rw [eval]
      refine (ih henv hj hleft).bind ((ih henv hk hright).bind ?_)
      exact (Run.Computes.record rfl).bind (.ofExcept (BinOp.apply_ofInt hop))
    | letIn x bound body =>
      obtain ⟨j, hj, hi⟩ := Option.bind_eq_some_iff.mp hi
      have hbound := hchild bound (by simp)
      have hbody := hchild body (by simp)
      rw [eval]
      exact (ih henv hj hbound).bind (ih (henv.bind x j) hi hbody)
    | _ => cases hi

/-! ## Main theorem -/

/-- **Integer expressions compute in the integers modulo 2 ^ 32.**  If all variables are bound to
integers, such an expression has a value, which every run finds without using a stream.  It is the
one 32-bit integer that is congruent to the value over the integers, wherever and however often the
run has left the range on its way. -/
theorem arithmetic_wraps {e : Expr} {env : Env Value} (he : e.Each (·.isArithmetic))
    (henv : ∀ x ∈ e.freeVars, ∃ n : Int32, env.find? x = some (.int n)) :
    ∃ (i : Int) (m : Int32), e.unbounded? env.unbounded? = some i ∧
      (∀ (table : FunctionTable) (budget : Nat), e.height ≤ budget →
        (eval table budget env e).Computes (.int m)) ∧
      m.toInt ≡ i [ZMOD 4294967296] ∧
      ∀ m' : Int32, m'.toInt ≡ i [ZMOD 4294967296] → m' = m := by
  have hknown : ∀ x ∈ e.freeVars, ∃ i, env.unbounded? x = some i := by
    intro x hx
    obtain ⟨n, hn⟩ := henv x hx
    exact ⟨n.toInt, by rw [Env.unbounded?, hn]; rfl⟩
  obtain ⟨i, hi⟩ := Expr.exists_unbounded? he hknown
  refine ⟨i, Int32.ofInt i, hi, fun table budget hbudget => ?_, modEq_toInt_iff.mpr rfl,
    fun m' => modEq_toInt_iff.mp⟩
  exact eval_unbounded? table env.rounds_unbounded? hi hbudget

/-- A sum leaves the range and is bound to a name; the difference and the product leave it again. -/
def overflowing : Expr :=
  .letIn "x" (.binop .add (.int 2147483647) (.var "y"))
    (.binop .mul (.var "x") (.binop .sub (.var "x") (.var "y")))

/-- What is no integer here is no variable of the expression. -/
def overflowingScope : Env Value := (Env.empty.bind "y" (.int 3)).bind "z" (.bool true)

theorem arithmetic_wraps_overflowing :
    overflowing.Each (·.isArithmetic) ∧
    (∀ x ∈ overflowing.freeVars, ∃ n : Int32, overflowingScope.find? x = some (.int n)) ∧
    overflowing.unbounded? overflowingScope.unbounded? = some 4611686020574871550 ∧
    (2147483646 : Int32).toInt ≡ 4611686020574871550 [ZMOD 4294967296] ∧
    (eval ∅ 4 overflowingScope overflowing).Computes (.int 2147483646) := by
  have he : overflowing.Each (·.isArithmetic) := by decide
  have henv : ∀ x ∈ overflowing.freeVars, ∃ n : Int32,
      overflowingScope.find? x = some (.int n) := by
    intro x hx
    obtain rfl : x = "y" := by simpa [overflowing, Expr.freeVars, Expr.int] using hx
    exact ⟨3, rfl⟩
  have hexact : overflowing.unbounded? overflowingScope.unbounded? = some 4611686020574871550 := rfl
  have hcongr : (2147483646 : Int32).toInt ≡ 4611686020574871550 [ZMOD 4294967296] := by decide
  obtain ⟨i, m, hi, hrun, -, hunique⟩ := arithmetic_wraps he henv
  obtain rfl : 4611686020574871550 = i := Option.some.inj (hexact.symm.trans hi)
  obtain rfl : 2147483646 = m := hunique _ hcongr
  exact ⟨he, henv, hexact, hcongr, hrun ∅ 4 (by decide)⟩

end ExprLang
