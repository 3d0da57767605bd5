import ExprLang.Eval.Budget
import ExprLang.Proofs.Nodes

/-!
# Runs that finish

Only a call can make a run go on: apart from calls, evaluation follows the expression down to its
leaves.

* `Run.Finishes` — a run ends on every console.
* `Expr.CalleesFinish` — the functions called in an expression finish within a given budget.

Principal result: `eval_finishes` — a budget of the height of an expression, beyond what the
functions called in it need, lets every run of the expression finish.
-/

set_option autoImplicit false

namespace ExprLang

variable {α β : Type}

namespace Run

/-- On every console the run comes to an end, with a value or with an error. -/
def Finishes (m : Run α) : Prop := ∀ c : Console, ∃ r, m.on c = some r

theorem Finishes.pure (a : α) : (pure a : Run α).Finishes := fun c => ⟨(.ok a, c), rfl⟩

theorem Finishes.ofStep (step : Console → Except RunError α × Console) : (ofStep step).Finishes :=
  fun c => ⟨step c, rfl⟩

theorem Finishes.ofOption (a? : Option α) (e : RunError) : (ofOption a? e).Finishes :=
  fun c => ⟨_, run_ofOption a? e c⟩

theorem Finishes.ensure (p : Prop) [Decidable p] (e : RunError) : (ensure p e).Finishes :=
  fun c => ⟨_, run_ensure p e c⟩

theorem Finishes.bind {m : Run α} {k : α → Run β} (hm : m.Finishes) (hk : ∀ a, (k a).Finishes) :
    (m >>= k).Finishes := by
  intro c
  obtain ⟨⟨r, d⟩, hmc⟩ := hm c
  rw [run_bind, hmc]
  cases r with
  | ok a => exact hk a d
  | error e => exact ⟨(.error e, d), rfl⟩

theorem Finishes.ofOption_bind {a? : Option α} {e : RunError} {k : α → Run β}
    (hk : ∀ a, a? = some a → (k a).Finishes) : (Run.ofOption a? e >>= k).Finishes := by
  cases a? with
  | none => exact fun c => ⟨(.error e, c), rfl⟩
  | some a => exact hk a rfl

theorem Finishes.mapM {f : α → Run β} {as : List α} (h : ∀ a ∈ as, (f a).Finishes) :
    (as.mapM f).Finishes := by
  induction as with
  | nil => exact .pure []
  | cons a as ih =>
    rw [List.forall_mem_cons] at h
    rw [List.mapM_cons]
    exact h.1.bind fun _ => (ih h.2).bind fun _ => .pure _

theorem Le.finishes {m m' : Run α} (hle : m.Le m') (h : m.Finishes) : m'.Finishes := by
  intro c
  obtain ⟨r, hr⟩ := h c
  exact ⟨r, hle c r hr⟩

end Run

/-! ## Calls -/

namespace Expr

/-- A call finishes as soon as the body of its function does within the budget. -/
def CalleeFinishes (table : FunctionTable) (budget : Nat) : Expr → Prop
  | .call f _ =>
    ∀ d, table[f]? = some d → ∀ env : Env Value, (eval table budget env d.body).Finishes
  | _ => True

/-- Every call in the expression finishes within the budget. -/
def CalleesFinish (table : FunctionTable) (budget : Nat) (e : Expr) : Prop :=
  e.Each (CalleeFinishes table budget)

end Expr

/-! ## Main result -/

/-- **Apart from calls, the height of an expression bounds its runs.** -/
theorem eval_finishes {table : FunctionTable} {m n : Nat} {e : Expr}
    (h : e.CalleesFinish table m) (hn : e.height + m ≤ n) (env : Env Value) :
    (eval table n env e).Finishes := by
  unfold Expr.CalleesFinish at h
  induction n generalizing e env with
  | zero =>
    have := e.height_pos
    omega
  | succ n ih =>
    obtain ⟨hself, hchildren⟩ := Expr.each_iff.mp h
    -- one unit of budget pays for the step from `e` to any of its children
    have hsub : ∀ a ∈ e.children, ∀ env, (eval table n env a).Finishes := by
      intro a ha env
      have := Expr.height_lt_of_mem_children ha
      exact ih (hchildren a ha) (by omega) env
    cases e with
    | lit v => exact .pure v
    | var x => exact .ofOption _ _
    | binop op left right =>
      have hleft := hsub left (by simp) env
      have hright := hsub right (by simp) env
      rw [eval]
      refine hleft.bind fun a => hright.bind fun b => ?_
      exact (Run.Finishes.ofStep _).bind fun _ => .ofStep _
    | not e =>
      rw [eval]
      exact (hsub e (by simp) env).bind fun v => (Run.Finishes.ofStep _).bind fun b => .pure _
    | letIn x bound body =>
      have hbody := hsub body (by simp)
      rw [eval]
      exact (hsub bound (by simp) env).bind fun v => hbody (env.bind x v)
    | ite test yes no =>
      rw [eval]
      refine (hsub test (by simp) env).bind fun v => (Run.Finishes.ofStep _).bind fun b => ?_
      split
      · exact hsub yes (by simp) env
      · exact hsub no (by simp) env
    | call f args =>
      have hvalues : (args.mapM (eval table n env)).Finishes := .mapM fun a ha => hsub a ha env
      rw [eval]
      refine .ofOption_bind fun d hd => (Run.Finishes.ensure _ _).bind fun _ => ?_
      refine hvalues.bind fun vs => (Run.Finishes.ofStep _).bind fun _ => ?_
      have hm : m ≤ n := by
        have := Expr.height_pos (.call f args)
        omega
      exact (eval_mono table hm _ d.body).finishes (hself d hd _)
    | concat parts =>
      rw [eval]
      refine Run.Finishes.bind (.mapM fun a ha => ?_) fun texts => .pure _
      exact (hsub a ha env).bind fun v => .ofStep _
    | print e =>
      rw [eval]
      refine (hsub e (by simp) env).bind fun v => (Run.Finishes.ofStep _).bind fun s => ?_
      exact (Run.Finishes.ofStep _).bind fun _ => .pure _
    | input => exact (Run.Finishes.ofStep _).bind fun _ => .pure _
    | cast target e =>
      rw [eval]
      refine (hsub e (by simp) env).bind fun v => ?_
      exact (Run.Finishes.ofStep _).bind fun _ => .ofStep _

end ExprLang
