import ExprLang.Proofs.CallsAsBindings
import ExprLang.Proofs.Soundness
import ExprLang.Session

/-!
# Bindings made one by one

A session evaluates expressions one after the other, binds each value and checks each expression
against the types of the values bound so far.  Nested bindings of the same expressions are checked
and run at once.  Both come to the same: the streams are carried from step to step as within one run,
and the type of a value is the type that was inferred for it.

* `StepReport` — what a step says of its check and of its output.
* `Proceeds` — steps that all gave values, from an environment and a console to others.

Principal results: `Proceeds.endsIn_iff` — what is evaluated after the steps ends as it does within
the nested bindings; `Proceeds.verdict_letAll_eq_ok` — the nested bindings are accepted just when the
steps are; `Session.proceeds_of_run` — sessions proceed like this; `step_by_step_agrees`.
-/

set_option autoImplicit false

namespace ExprLang

variable {table : FunctionTable}

/-! ## One binding -/

section Binding

variable {env : Env Value} {x : Name} {bound body : Expr} {c d : Console} {v : Value}

/-- A binding goes on where its bound expression ended. -/
theorem endsIn_letIn {budget : Nat} (hbound : (eval table budget env bound).on c = some (.ok v, d))
    {ending : Ending} :
    EndsIn table env (.letIn x bound body) c ending ↔
      EndsIn table (env.bind x v) body d ending := by
  have hseen : ∀ {n}, budget ≤ n → (eval table (n + 1) env (.letIn x bound body)).seen c =
      (eval table n (env.bind x v) body).seen d :=
    fun hn => Run.seen_bind_of_value (eval_mono table hn env bound c _ hbound)
  constructor
  · rintro ⟨n, hn⟩
    refine ⟨max budget n, ?_⟩
    rw [← hseen (Nat.le_max_left budget n)]
    exact (eval_mono table (by omega) env _).seen hn
  · rintro ⟨n, hn⟩
    refine ⟨max budget n + 1, ?_⟩
    rw [hseen (Nat.le_max_left budget n)]
    exact (eval_mono table (Nat.le_max_right budget n) _ body).seen hn

theorem endsIn_letIn_of_error {err : RunError} {out unread : List UInt8}
    (hbound : EndsIn table env bound c ⟨.error err, out, unread⟩) :
    EndsIn table env (.letIn x bound body) c ⟨.error err, out, unread⟩ := by
  obtain ⟨n, hn⟩ := hbound
  exact ⟨n + 1, Run.seen_bind_of_error hn⟩

/-- The type inferred for the bound expression is that of its value, so the body may as well be checked
with the type of the value. -/
theorem verdict_letIn_eq_ok (hF : table.Checked) {budget : Nat}
    (hbound : (eval table budget env bound).on c = some (.ok v, d)) {t : Ty} :
    (infer table (env.map Value.type) (.letIn x bound body)).verdict = .ok t ↔
      (∃ u, (infer table (env.map Value.type) bound).verdict = .ok u) ∧
        (infer table ((env.bind x v).map Value.type) body).verdict = .ok t := by
  have htype : ∀ u, (infer table (env.map Value.type) bound).verdict = .ok u → v.type = u :=
    fun u hu => (eval_obeys hF (hasType_of_infer hu) (Env.fits_map env) c _ d hbound).2
  rw [infer, Check.verdict_bind_eq_ok]
  constructor
  · rintro ⟨u, hu, hbody⟩
    obtain rfl := htype u hu
    exact ⟨⟨v.type, hu⟩, hbody⟩
  · rintro ⟨⟨u, hu⟩, hbody⟩
    obtain rfl := htype u hu
    exact ⟨v.type, hu, hbody⟩

end Binding

/-! ## Steps -/

/-- The check of the step's expression, and what the step wrote. -/
structure StepReport where
  check : Check Ty
  output : List UInt8

/-- The expressions are evaluated in turn and give values.  Every step is checked against the types of
the values that it finds, and has a budget of its own. -/
inductive Proceeds (table : FunctionTable) :
    Env Value → Console → List (Name × Expr) → List StepReport → Env Value → Console → Prop
  | nil {env : Env Value} {c : Console} : Proceeds table env c [] [] env c
  | cons {env env' : Env Value} {c d c' : Console} {x : Name} {e : Expr} {v : Value} {budget : Nat}
      {entries : List (Name × Expr)} {reports : List StepReport} :
      (eval table budget env e).on c.forget = some (.ok v, d) →
      Proceeds table (env.bind x v) d entries reports env' c' →
      Proceeds table env c ((x, e) :: entries)
        (⟨infer table (env.map Value.type) e, d.output⟩ :: reports) env' c'

namespace Proceeds

variable {env env' : Env Value} {c c' : Console} {entries : List (Name × Expr)}
  {reports : List StepReport}

/-- **What comes after the steps ends as it does within the nested bindings.** -/
theorem endsIn_iff (h : Proceeds table env c entries reports env' c') {e : Expr} {ending : Ending} :
    EndsIn table env' e c'.forget ending ↔
      EndsIn table env (.letAll entries e) c.forget
        (ending.after (reports.flatMap StepReport.output)) := by
  induction h with
  | nil => exact Iff.rfl
  | @cons env env' c d c' x e₁ v budget entries reports hstep _ ih =>
    calc EndsIn table env' e c'.forget ending
      _ ↔ EndsIn table (env.bind x v) (.letAll entries e) d.forget
            (ending.after (reports.flatMap StepReport.output)) := ih
      _ ↔ EndsIn table (env.bind x v) (.letAll entries e) d
            ((ending.after (reports.flatMap StepReport.output)).after d.output) := endsIn_forget
      _ ↔ EndsIn table env (.letIn x e₁ (.letAll entries e)) c.forget
            ((ending.after (reports.flatMap StepReport.output)).after d.output) :=
          (endsIn_letIn hstep).symm
      _ ↔ EndsIn table env (.letAll ((x, e₁) :: entries) e) c.forget
            (ending.after (d.output ++ reports.flatMap StepReport.output)) := by
          rw [Ending.after_append]
          rfl

/-- **The nested bindings are accepted just when the steps are**, with the same type. -/
theorem verdict_letAll_eq_ok (hF : table.Checked)
    (h : Proceeds table env c entries reports env' c') {e : Expr} {t : Ty} :
    (infer table (env.map Value.type) (.letAll entries e)).verdict = .ok t ↔
      (∀ report ∈ reports, ∃ u, report.check.verdict = .ok u) ∧
        (infer table (env'.map Value.type) e).verdict = .ok t := by
  induction h with
  | nil => simp [Expr.letAll]
  | cons hstep _ ih =>
    rw [List.forall_mem_cons, and_assoc, ← ih]
    exact verdict_letIn_eq_ok hF hstep

end Proceeds

/-! ## Sessions -/

/-- The report of a reply with a value. -/
def Reply.report? : Reply → Option StepReport
  | .evaluated check (.ok _) after => some ⟨check, after.output⟩
  | _ => none

theorem Session.step_letIn_eq_some {budget : Nat} {s s₁ : Session} {x : Name} {e : Expr}
    {reply : Reply} {report : StepReport} (h : s.step budget (.letIn x e) = some (reply, s₁))
    (hreport : reply.report? = some report) :
    ∃ v d, (eval s.table budget s.top e).on s.console.forget = some (.ok v, d) ∧
      report = ⟨infer s.table (s.top.map Value.type) e, d.output⟩ ∧
      s₁ = { s with top := s.top.bind x v, console := d } := by
  rw [step, evaluate] at h
  cases hrun : (eval s.table budget s.top e).on s.console.forget with
  | none =>
    rw [hrun] at h
    cases h
  | some y =>
    obtain ⟨r, d⟩ := y
    rw [hrun] at h
    cases r with
    | error err =>
      cases h
      cases hreport
    | ok v =>
      cases h
      cases hreport
      exact ⟨v, d, rfl, rfl, rfl⟩

/-- **Sessions proceed like this** as long as their replies have values. -/
theorem Session.proceeds_of_run {budget : Nat} {s s' : Session} {entries : List (Name × Expr)}
    {replies : List Reply} {reports : List StepReport}
    (h : s.run budget (entries.map fun entry => .letIn entry.1 entry.2) = some (replies, s'))
    (hreports : replies.map Reply.report? = reports.map some) :
    Proceeds s.table s.top s.console entries reports s'.top s'.console := by
  induction entries generalizing s replies reports with
  | nil =>
    cases h
    obtain rfl := List.map_eq_nil_iff.mp hreports.symm
    exact .nil
  | cons entry entries ih =>
    obtain ⟨x, e⟩ := entry
    obtain ⟨⟨reply, s₁⟩, hstep, h⟩ := Option.bind_eq_some_iff.mp h
    obtain ⟨⟨rest, s₂⟩, hrest, h⟩ := Option.bind_eq_some_iff.mp h
    cases h
    obtain ⟨report, later, rfl, hreport, hlater⟩ := List.map_eq_cons_iff.mp hreports.symm
    obtain ⟨v, d, hrun, rfl, rfl⟩ := step_letIn_eq_some hstep hreport.symm
    exact .cons hrun (ih hrest hlater.symm)

/-! ## Main theorem -/

/-- **Step by step is as at once.**  After steps that gave values, an expression ends as it does within
their nested bindings, with the output of the steps before its own; if it fails, so do bindings in
which it comes next, whatever follows it.  With checked functions the nested bindings are accepted, in
the types of the starting values, just when all the steps and the expression are, each in the types of
the values that it was run with. -/
theorem step_by_step_agrees {env env' : Env Value} {c c' : Console}
    {entries : List (Name × Expr)} {reports : List StepReport}
    (h : Proceeds table env c entries reports env' c') :
    (∀ (e : Expr) (r : Except RunError Value) (out unread : List UInt8),
      EndsIn table env' e c'.forget ⟨r, out, unread⟩ ↔
        EndsIn table env (.letAll entries e) c.forget
          ⟨r, reports.flatMap StepReport.output ++ out, unread⟩) ∧
    (∀ (x : Name) (e : Expr) (later : List (Name × Expr)) (body : Expr) (err : RunError)
        (out unread : List UInt8),
      EndsIn table env' e c'.forget ⟨.error err, out, unread⟩ →
        EndsIn table env (.letAll (entries ++ (x, e) :: later) body) c.forget
          ⟨.error err, reports.flatMap StepReport.output ++ out, unread⟩) ∧
    (table.Checked → ∀ (e : Expr) (t : Ty),
      (infer table (env.map Value.type) (.letAll entries e)).verdict = .ok t ↔
        (∀ report ∈ reports, ∃ u, report.check.verdict = .ok u) ∧
          (infer table (env'.map Value.type) e).verdict = .ok t) := by
  refine ⟨fun e r out unread => h.endsIn_iff, ?_, fun hF e t => h.verdict_letAll_eq_ok hF⟩
  intro x e later body err out unread he
  have hnext : EndsIn table env' (.letIn x e (.letAll later body)) c'.forget
      ⟨.error err, out, unread⟩ := endsIn_letIn_of_error he
  rw [Expr.letAll, List.foldr_append]
  exact h.endsIn_iff.mp hnext

/-- Greets with a number. -/
def greeting : Program where
  functions :=
    [{ name := "greet", params := [("n", .int)], result := .unit,
       body := .print (.concat [.string "hi ", .cast .string (.var "n")]) }]
  main := .call "greet" [.int 1]

/-- Takes the number from the input. -/
def greetingSteps : List (Name × Expr) :=
  [("n", .cast .int .input), ("u", .call "greet" [.var "n"])]

def greetingReports : List StepReport :=
  [⟨infer greeting.table .empty (.cast .int .input), []⟩,
    ⟨infer greeting.table (Env.empty.bind "n" .int) (.call "greet" [.var "n"]),
      Utf8.encode "hi 2\n"⟩]

/-- One line for the steps, and one more. -/
def greetingSession : Session :=
  .start greeting.functions .empty (.faultless (Utf8.encode "2\nx"))

theorem step_by_step_agrees_greeting :
    (∃ replies s',
      greetingSession.run 9 (greetingSteps.map fun entry => .letIn entry.1 entry.2) =
        some (replies, s') ∧
      Proceeds greeting.table .empty (.faultless (Utf8.encode "2\nx")) greetingSteps
        greetingReports s'.top s'.console) ∧
    EndsIn greeting.table .empty (.letAll greetingSteps (.binop .div (.int 6) (.var "n")))
      (.faultless (Utf8.encode "2\nx")) ⟨.ok (.int 3), Utf8.encode "hi 2\n", Utf8.encode "x"⟩ ∧
    EndsIn greeting.table .empty
      (.letAll (greetingSteps ++ [("m", .cast .int .input), ("k", .var "m")]) (.var "k"))
      (.faultless (Utf8.encode "2\nx"))
      ⟨.error (.castFailure (.string "x") .int), Utf8.encode "hi 2\n", []⟩ ∧
    greeting.table.Checked ∧
    (infer greeting.table .empty
      (.letAll greetingSteps (.binop .div (.int 6) (.var "n")))).verdict = .ok .int := by
  have hp : greeting.infer.verdict = .ok .unit := rfl
  have hF : greeting.table.Checked := (Program.infer_eq_ok hp).2.1
  have hsession : ∃ replies s',
      greetingSession.run 9 (greetingSteps.map fun entry => .letIn entry.1 entry.2) =
        some (replies, s') ∧
      replies.map Reply.report? = greetingReports.map some ∧
      s'.top = (Env.empty.bind "n" (.int 2)).bind "u" .unit ∧
      s'.console.forget = .faultless (Utf8.encode "x") := ⟨_, _, rfl, rfl, rfl, rfl⟩
  obtain ⟨replies, s', hrun, hreports, htop, hconsole⟩ := hsession
  have hsteps : Proceeds greeting.table .empty (.faultless (Utf8.encode "2\nx")) greetingSteps
      greetingReports s'.top s'.console := Session.proceeds_of_run hrun hreports
  have haccepted : ∀ report ∈ greetingReports, ∃ u, report.check.verdict = .ok u := by
    rw [greetingReports, List.forall_mem_cons, List.forall_mem_singleton]
    exact ⟨⟨.int, rfl⟩, .unit, rfl⟩
  obtain ⟨hend, hfail, hcheck⟩ := step_by_step_agrees hsteps
  rw [htop, hconsole] at hend hfail
  rw [htop] at hcheck
  exact ⟨⟨replies, s', hrun, hsteps⟩, (hend _ _ _ _).mp ⟨9, rfl⟩,
    hfail _ _ _ _ _ _ _ ⟨9, rfl⟩, hF, (hcheck hF _ _).mpr ⟨haccepted, rfl⟩⟩

end ExprLang
