import ExprLang.Proofs.Conduct
import ExprLang.Proofs.ReachedNodes
import ExprLang.Eval.Eval

/-!
# The definitions a run depends on

A run looks functions up by name, and the names it looks up are among those that its expression can
reach.  Where two tables agree on these the runs are the same.  A name that the first table does not
define can only matter to a run that fails for the lack of it.

* `Run.LeUnless` — whatever finishes in one run, unless with certain errors, finishes in the same way
  in another.

Principal results: `eval_leUnless` — a table that agrees with another on all reachable names, or
defines names that this one lacks, runs expressions in the same way; `Reachable.of_agreement` — and
no more can be reached in it; `on_eval_congr` — tables with the same entries give the same runs;
`run_depends_on_reachable` — both halves for a given expression.
-/

set_option autoImplicit false

namespace ExprLang

variable {α β : Type}

/-! ## Runs that agree unless they fail in a certain way -/

namespace Run

def LeUnless (P : RunError → Prop) (m m' : Run α) : Prop :=
  ∀ (c : Console) (r : Except RunError α) (d : Console), m.on c = some (r, d) →
    Ends (fun _ => True) (fun e => ¬ P e) r → m'.on c = some (r, d)

variable {P : RunError → Prop}

theorem LeUnless.refl (m : Run α) : m.LeUnless P m := fun _ _ _ h _ => h

theorem LeUnless.of_excluded {e : RunError} (he : P e) (m' : Run α) :
    (throw e : Run α).LeUnless P m' := by
  intro c r d h hr
  cases h
  exact absurd he hr

theorem LeUnless.bind {m m' : Run α} {k k' : α → Run β} (hm : m.LeUnless P m')
    (hk : ∀ a, (k a).LeUnless P (k' a)) : (m >>= k).LeUnless P (m' >>= k') := by
  intro c r d h hr
  rcases run_bind_eq_some.mp h with ⟨e, hfirst, rfl⟩ | ⟨a, c', hfirst, hrest⟩
  · exact run_bind_eq_some.mpr (.inl ⟨e, hm c _ d hfirst hr, rfl⟩)
  · exact run_bind_eq_some.mpr
      (.inr ⟨a, c', hm c _ c' hfirst trivial, hk a c' r d hrest hr⟩)

theorem LeUnless.ofOption_bind {a? : Option α} {e : RunError} {k k' : α → Run β}
    (hk : ∀ a, a? = some a → (k a).LeUnless P (k' a)) :
    (Run.ofOption a? e >>= k).LeUnless P (Run.ofOption a? e >>= k') := by
  cases a? with
  | none => exact .refl (throw e)
  | some a => exact hk a rfl

theorem LeUnless.mapM {f g : α → Run β} {as : List α} (h : ∀ a ∈ as, (f a).LeUnless P (g a)) :
    (as.mapM f).LeUnless P (as.mapM g) := by
  induction as with
  | nil => exact .refl _
  | cons a as ih =>
    rw [List.forall_mem_cons] at h
    rw [List.mapM_cons, List.mapM_cons]
    exact h.1.bind fun _ => (ih h.2).bind fun _ => .refl _

/-- Runs that agree in both directions, whatever the end, are the same. -/
theorem on_eq_of_leUnless {m m' : Run α} (h : m.LeUnless (fun _ => False) m')
    (h' : m'.LeUnless (fun _ => False) m) (c : Console) : m.on c = m'.on c := by
  have hends : ∀ r : Except RunError α, Ends (fun _ => True) (fun _ => ¬ False) r := by
    intro r
    cases r with
    | ok a => trivial
    | error e => exact not_false
  apply Option.ext
  rintro ⟨r, d⟩
  exact ⟨fun hr => h c r d hr (hends r), fun hr => h' c r d hr (hends r)⟩

end Run

/-! ## Tables that agree -/

variable {table table' : FunctionTable} {e : Expr}

/-- **A run keeps to the definitions that it can reach.**  The induction is on the budget; what is
reachable from a part of the expression, or from the body of a function called, is reachable from the
expression. -/
theorem eval_leUnless {P : RunError → Prop}
    (h : ∀ f, table.Reachable e f → table[f]? = table'[f]? ∨
      table[f]? = none ∧ P (.undefinedFunction f)) (n : Nat) (env : Env Value) :
    (eval table n env e).LeUnless P (eval table' n env e) := by
  induction n generalizing e env with
  | zero => exact .refl _
  | succ n ih =>
    have hsub : ∀ a ∈ e.children, ∀ env, (eval table n env a).LeUnless P (eval table' n env a) :=
      fun a ha => ih fun f hf => h f (hf.of_mem_children ha)
    cases e with
    | lit v => exact .refl _
    | var x => exact .refl _
    | binop op left right =>
      have hleft := hsub left (by simp) env
      have hright := hsub right (by simp) env
      rw [eval, eval]
      exact hleft.bind fun _ => hright.bind fun _ => .refl _
    | not e =>
      rw [eval, eval]
      exact (hsub e (by simp) env).bind fun _ => .refl _
    | letIn x bound body =>
      have hbody := hsub body (by simp)
      rw [eval, eval]
      exact (hsub bound (by simp) env).bind fun v => hbody (env.bind x v)
    | ite test yes no =>
      have hyes := hsub yes (by simp) env
      have hno := hsub no (by simp) env
      rw [eval, eval]
      refine (hsub test (by simp) env).bind fun v => (Run.LeUnless.refl _).bind fun b => ?_
      split
      · exact hyes
      · exact hno
    | call f args =>
      have hargs : (args.mapM (eval table n env)).LeUnless P (args.mapM (eval table' n env)) :=
        .mapM fun a ha => hsub a ha env
      have hf := FunctionTable.reachable_call table f args
      rw [eval, eval]
      rcases h f hf with hsame | ⟨hnone, hexcluded⟩
      · rw [← hsame]
        refine .ofOption_bind fun d hd => (Run.LeUnless.refl _).bind fun _ => ?_
        refine hargs.bind fun values => (Run.LeUnless.refl _).bind fun _ => ?_
        exact ih (fun g hg => h g (hf.trans hd hg)) _
      · rw [hnone]
        exact .of_excluded hexcluded _
    | concat parts =>
      rw [eval, eval]
      refine Run.LeUnless.bind (.mapM fun a ha => ?_) fun _ => .refl _
      exact (hsub a ha env).bind fun _ => .refl _
    | print e =>
      rw [eval, eval]
      exact (hsub e (by simp) env).bind fun _ => .refl _
    | input => exact .refl _
    | cast target e =>
      rw [eval, eval]
      exact (hsub e (by simp) env).bind fun _ => .refl _

/-- Where the entries agree the same names are reached. -/
theorem FunctionTable.Reachable.of_agreement (h : ∀ f, table.Reachable e f → table[f]? = table'[f]?)
    {f : Name} (hf : table'.Reachable e f) : table.Reachable e f := by
  induction hf with
  | called hcalled => exact .called hcalled
  | through _ hd hcalled ih => exact .through ih ((h _ ih).trans hd) hcalled

theorem on_eval_congr_reachable (h : ∀ f, table.Reachable e f → table[f]? = table'[f]?) (n : Nat)
    (env : Env Value) (c : Console) : (eval table n env e).on c = (eval table' n env e).on c := by
  refine Run.on_eq_of_leUnless ?_ ?_ c
  · exact eval_leUnless (fun f hf => .inl (h f hf)) n env
  · exact eval_leUnless (fun f hf => .inl (h f (hf.of_agreement h)).symm) n env

/-- How a table was made does not show in runs. -/
theorem on_eval_congr (h : ∀ f : Name, table[f]? = table'[f]?) (n : Nat) (env : Env Value)
    (e : Expr) (c : Console) : (eval table n env e).on c = (eval table' n env e).on c :=
  on_eval_congr_reachable (fun f _ => h f) n env c

/-- A function that is defined besides matters only to a run that fails for the lack of it. -/
theorem on_eval_insert {g : Name} (hg : table[g]? = none) (d : Definition) {n : Nat}
    {env : Env Value} {c c' : Console} {r : Except RunError Value}
    (hrun : (eval table n env e).on c = some (r, c')) (hr : r ≠ .error (.undefinedFunction g)) :
    (eval (table.insert g d) n env e).on c = some (r, c') := by
  have hentries : ∀ f, table[f]? = (table.insert g d)[f]? ∨
      table[f]? = none ∧ RunError.undefinedFunction f = .undefinedFunction g := by
    intro f
    by_cases hf : f = g
    · exact .inr ⟨hf ▸ hg, congrArg _ hf⟩
    · refine .inl ?_
      rw [Std.TreeMap.getElem?_insert, if_neg]
      simpa using Ne.symm hf
  refine eval_leUnless (P := (· = .undefinedFunction g)) (fun f _ => hentries f) n env c r c' hrun ?_
  cases r with
  | ok v => trivial
  | error err => exact fun h => hr (congrArg _ h)

/-! ## Main theorem -/

/-- **A run depends on the definitions that it can reach.**  Tables that agree on the names called in
an expression and, repeatedly, in the bodies of reached functions run it alike on every console.  And
a run that did not fail for the lack of a function is the same with any definition of it. -/
theorem run_depends_on_reachable :
    (∀ (table table' : FunctionTable) (e : Expr),
      (∀ f, table.Reachable e f → table[f]? = table'[f]?) →
      ∀ (budget : Nat) (env : Env Value) (c : Console),
        (eval table budget env e).on c = (eval table' budget env e).on c) ∧
    ∀ (table : FunctionTable) (g : Name) (d : Definition), table[g]? = none →
      ∀ (budget : Nat) (env : Env Value) (e : Expr) (c : Console) (r : Except RunError Value)
        (c' : Console), (eval table budget env e).on c = some (r, c') →
        r ≠ .error (.undefinedFunction g) →
        (eval (table.insert g d) budget env e).on c = some (r, c') :=
  ⟨fun _ _ _ h budget env c => on_eval_congr_reachable h budget env c,
    fun _ _ d hg _ _ _ _ _ _ hrun hr => on_eval_insert hg d hrun hr⟩

/-- Counts down, and would sound an alarm if the number were large. -/
def cautious : Definition where
  name := "down"
  params := [("n", .int)]
  result := .string
  body :=
    .ite (.binop .gt (.var "n") (.int 9)) (.call "alarm" [])
      (.ite (.binop .eq (.var "n") (.int 0)) (.string "done")
        (.call "down" [.binop .sub (.var "n") (.int 1)]))

/-- An alarm, and a function that nothing calls. -/
def alarm : Definition := ⟨"alarm", [], .string, .print (.string "alarm")⟩
def spare : Definition := ⟨"spare", [], .int, .call "down" [.int 1]⟩

theorem run_depends_on_reachable_cautious :
    (∀ f, (FunctionTable.ofDefinitions [cautious, spare]).Reachable (.call "down" [.int 2]) f →
      (FunctionTable.ofDefinitions [cautious, spare])[f]? =
        (FunctionTable.ofDefinitions [cautious])[f]?) ∧
    (FunctionTable.ofDefinitions [cautious, spare])["spare"]? = some spare ∧
    (FunctionTable.ofDefinitions [cautious])["spare"]? = none ∧
    (FunctionTable.ofDefinitions [cautious])["alarm"]? = none ∧
    ∃ d, (eval (.ofDefinitions [cautious, spare]) 12 .empty (.call "down" [.int 2])).on
        (.faultless []) = some (.ok (.string "done"), d) ∧
      (eval (.ofDefinitions [cautious]) 12 .empty (.call "down" [.int 2])).on
        (.faultless []) = some (.ok (.string "done"), d) ∧
      (eval ((FunctionTable.ofDefinitions [cautious]).insert "alarm" alarm) 12 .empty
        (.call "down" [.int 2])).on (.faultless []) = some (.ok (.string "done"), d) := by
  have hagree : ∀ f,
      (FunctionTable.ofDefinitions [cautious, spare]).Reachable (.call "down" [.int 2]) f →
      (FunctionTable.ofDefinitions [cautious, spare])[f]? =
        (FunctionTable.ofDefinitions [cautious])[f]? := by
    intro f hf
    have hmem : f ∈ ["down", "alarm"] := hf.mem_of_closed (by decide) (by decide)
    simp only [List.mem_cons, List.not_mem_nil, or_false] at hmem
    rcases hmem with rfl | rfl <;> rfl
  have hnone : (FunctionTable.ofDefinitions [cautious])["alarm"]? = none := rfl
  have hrun : ∃ d, (eval (.ofDefinitions [cautious, spare]) 12 .empty
      (.call "down" [.int 2])).on (.faultless []) = some (.ok (.string "done"), d) := ⟨_, rfl⟩
  obtain ⟨d, hd⟩ := hrun
  obtain ⟨hsame, hinsert⟩ := run_depends_on_reachable
  have hd' := (hsame _ _ _ hagree 12 .empty (.faultless [])).symm.trans hd
  exact ⟨hagree, rfl, rfl, hnone, d, hd, hd', hinsert _ _ alarm hnone 12 _ _ _ _ d hd' (by simp)⟩

end ExprLang
