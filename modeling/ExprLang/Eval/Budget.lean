import ExprLang.Eval.Eval

/-!
# Budgets

A budget decides only whether a run finishes, never how.

* `Run.Le` — whatever finishes in one run finishes in the same way in another.

Principal results: `eval_mono` — a run that finishes does so in the same way on any larger budget;
`eval_unique` — any two budgets that let it finish agree.
-/

set_option autoImplicit false

namespace ExprLang

variable {α β : Type}

namespace Run

def Le (m m' : Run α) : Prop :=
  ∀ (c : Console) (r : Except RunError α × Console), m.on c = some r → m'.on c = some r

theorem Le.refl (m : Run α) : m.Le m := fun _ _ h => h

theorem Le.trans {m m' m'' : Run α} (h : m.Le m') (h' : m'.Le m'') : m.Le m'' :=
  fun c r hr => h' c r (h c r hr)

theorem Le.bind {m m' : Run α} {k k' : α → Run β} (hm : m.Le m') (hk : ∀ a, (k a).Le (k' a)) :
    (m >>= k).Le (m' >>= k') := by
  rintro c ⟨r, d⟩ h
  rcases run_bind_eq_some.mp h with ⟨e, hfirst, rfl⟩ | ⟨a, c', hfirst, hrest⟩
  · exact run_bind_eq_some.mpr (.inl ⟨e, hm c _ hfirst, rfl⟩)
  · exact run_bind_eq_some.mpr (.inr ⟨a, c', hm c _ hfirst, hk a c' _ hrest⟩)

theorem Le.mapM {f g : α → Run β} (h : ∀ a, (f a).Le (g a)) (as : List α) :
    (as.mapM f).Le (as.mapM g) := by
  induction as with
  | nil => exact .refl _
  | cons a as ih =>
    rw [List.mapM_cons, List.mapM_cons]
    exact (h a).bind fun _ => ih.bind fun _ => .refl _

end Run

/-- One more nested evaluation does no harm. -/
theorem eval_le_succ (table : FunctionTable) (n : Nat) (env : Env Value) (e : Expr) :
    (eval table n env e).Le (eval table (n + 1) env e) := by
  induction n generalizing env e with
  | zero =>
    intro c r h
    cases h
  | succ n ih =>
    cases e with
    | lit v => exact .refl _
    | var x => exact .refl _
    | binop op left right => exact (ih env left).bind fun _ => (ih env right).bind fun _ => .refl _
    | not e => exact (ih env e).bind fun _ => .refl _
    | letIn x bound body => exact (ih env bound).bind fun _ => ih _ body
    | ite test yes no =>
      rw [eval, eval]
      refine (ih env test).bind fun _ => (Run.Le.refl _).bind fun _ => ?_
      split
      · exact ih env yes
      · exact ih env no
    | call f args =>
      rw [eval, eval]
      refine (Run.Le.refl _).bind fun d => (Run.Le.refl _).bind fun _ => ?_
      exact (Run.Le.mapM (ih env) args).bind fun _ => (Run.Le.refl _).bind fun _ => ih _ d.body
    | concat parts =>
      rw [eval, eval]
      exact (Run.Le.mapM (fun e => (ih env e).bind fun _ => .refl _) parts).bind fun _ => .refl _
    | print e => exact (ih env e).bind fun _ => .refl _
    | input => exact .refl _
    | cast target e => exact (ih env e).bind fun _ => .refl _

theorem eval_mono (table : FunctionTable) {n m : Nat} (h : n ≤ m) (env : Env Value) (e : Expr) :
    (eval table n env e).Le (eval table m env e) := by
  induction h with
  | refl => exact .refl _
  | step _ ih => exact ih.trans (eval_le_succ table _ env e)

theorem eval_unique (table : FunctionTable) {n m : Nat} {env : Env Value} {e : Expr} {c : Console}
    {r r' : Except RunError Value × Console} (hn : (eval table n env e).on c = some r)
    (hm : (eval table m env e).on c = some r') : r = r' := by
  have hr := eval_mono table (Nat.le_max_left n m) env e c r hn
  have hr' := eval_mono table (Nat.le_max_right n m) env e c r' hm
  rw [hr] at hr'
  exact Option.some.inj hr'

end ExprLang
