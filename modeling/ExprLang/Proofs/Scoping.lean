import ExprLang.Eval.Eval
import ExprLang.Expr.Scope

/-!
# Lexical scoping

A run takes from its environment nothing but the values of the free variables of its expression.
The body of a function is run in an environment of its own, so whatever variables it mentions, it
does not see those of the caller.

* `Env.AgreeOn` — two environments give the names of a list the same values, or none.

Principal result: `eval_scoped` — expressions run alike in environments that agree on their free
variables.
-/

set_option autoImplicit false

namespace ExprLang

namespace Env

variable {α : Type}

/-- Same payload, or unbound in both. -/
def AgreeOn (xs : List Name) (env env' : Env α) : Prop :=
  ∀ x ∈ xs, env.find? x = env'.find? x

theorem AgreeOn.mono {xs ys : List Name} {env env' : Env α} (h : AgreeOn xs env env')
    (hsub : ∀ y ∈ ys, y ∈ xs) : AgreeOn ys env env' := fun y hy => h y (hsub y hy)

theorem agreeOn_append {xs ys : List Name} {env env' : Env α} :
    AgreeOn (xs ++ ys) env env' ↔ AgreeOn xs env env' ∧ AgreeOn ys env env' :=
  List.forall_mem_append

/-- A binding of both needs no agreement on its name. -/
theorem AgreeOn.bind {x : Name} {xs : List Name} {env env' : Env α}
    (h : AgreeOn (xs.filter (· ≠ x)) env env') (a : α) :
    AgreeOn xs (env.bind x a) (env'.bind x a) := by
  intro y hy
  rw [find?_bind, find?_bind]
  split
  · rfl
  · rename_i hyx
    exact h y (List.mem_filter.mpr ⟨hy, by simpa using hyx⟩)

end Env

theorem mapM_congr_mem {α β : Type} {f g : α → Run β} {as : List α} (h : ∀ a ∈ as, f a = g a) :
    as.mapM f = as.mapM g := by
  induction as with
  | nil => rfl
  | cons a as ih =>
    rw [List.forall_mem_cons] at h
    rw [List.mapM_cons, List.mapM_cons, h.1, ih h.2]

theorem agreeOn_freeVars_of_mem {α : Type} {es : List Expr} {env env' : Env α}
    (h : Env.AgreeOn (Expr.freeVarsAll es) env env') {e : Expr} (he : e ∈ es) :
    Env.AgreeOn e.freeVars env env' :=
  h.mono fun _ hx => Expr.mem_freeVarsAll.mpr ⟨e, he, hx⟩

/-- **A run sees the free variables of its expression.**  The induction is on the budget; the body
of a called function is run in the same environment on both sides. -/
theorem eval_congr (table : FunctionTable) (n : Nat) {e : Expr} {env env' : Env Value}
    (h : Env.AgreeOn e.freeVars env env') : eval table n env e = eval table n env' e := by
  induction n generalizing e env env' with
  | zero => rfl
  | succ n ih =>
    cases e with
    | lit v => rfl
    | var x => rw [eval, eval, h x (List.mem_singleton.mpr rfl)]
    | binop op left right =>
      obtain ⟨hl, hr⟩ := Env.agreeOn_append.mp h
      rw [eval, eval, ih hl, ih hr]
    | not e => rw [eval, eval, ih (e := e) h]
    | letIn x bound body =>
      obtain ⟨hb, hk⟩ := Env.agreeOn_append.mp h
      have hbody : ∀ v, eval table n (env.bind x v) body = eval table n (env'.bind x v) body :=
        fun v => ih (hk.bind v)
      rw [eval, eval, ih hb]
      simp only [hbody]
    | ite test yes no =>
      obtain ⟨hty, hn⟩ := Env.agreeOn_append.mp h
      obtain ⟨ht, hy⟩ := Env.agreeOn_append.mp hty
      rw [eval, eval, ih ht, ih hy, ih hn]
    | call f args =>
      have hargs : args.mapM (eval table n env) = args.mapM (eval table n env') :=
        mapM_congr_mem fun a ha => ih (agreeOn_freeVars_of_mem h ha)
      rw [eval, eval, hargs]
    | concat parts =>
      rw [eval, eval]
      congr 1
      refine mapM_congr_mem fun a ha => ?_
      rw [ih (agreeOn_freeVars_of_mem h ha)]
    | print e => rw [eval, eval, ih (e := e) h]
    | input => rfl
    | cast target e => rw [eval, eval, ih (e := e) h]

/-- **Scoping is lexical, and callees are isolated.**  Environments that agree on the free
variables of an expression, those of its arguments alone for a call, give the same run: on each
console both finish or neither does, with the same result and the same console after it.  Nothing is
asked of the functions, whatever variables their bodies mention. -/
theorem eval_scoped {e : Expr} {env env' : Env Value}
    (h : ∀ x ∈ e.freeVars, env.find? x = env'.find? x) (table : FunctionTable) (budget : Nat)
    (c : Console) : (eval table budget env e).on c = (eval table budget env' e).on c := by
  rw [eval_congr table budget h]

/-- A function whose body mentions a variable that is no parameter. -/
def addFree : Definition where
  name := "f"
  params := [("p", .int)]
  result := .int
  body := .binop .add (.var "p") (.var "y")

/-- A caller's scope that binds this variable. -/
def callerScope : Env Value := (Env.empty.bind "x" (.int 1)).bind "y" (.int 2)

theorem eval_scoped_addFree :
    (∀ x ∈ (Expr.call "f" [.var "x"]).freeVars,
      callerScope.find? x = (Env.empty.bind "x" (Value.int 1)).find? x) ∧
    ((eval (.ofDefinitions [addFree]) 4 callerScope (.call "f" [.var "x"])).on
      (.faultless [])).map Prod.fst = some (.error (.unboundName "y")) ∧
    (eval (.ofDefinitions [addFree]) 4 callerScope (.call "f" [.var "x"])).on (.faultless []) =
      (eval (.ofDefinitions [addFree]) 4 (Env.empty.bind "x" (.int 1))
        (.call "f" [.var "x"])).on (.faultless []) := by
  have h : ∀ x ∈ (Expr.call "f" [.var "x"]).freeVars,
      callerScope.find? x = (Env.empty.bind "x" (Value.int 1)).find? x := by decide
  exact ⟨h, rfl, eval_scoped h _ 4 _⟩

end ExprLang
