import ExprLang.Proofs.Agreement
import ExprLang.Proofs.Termination

/-!
# The first error

Checker and evaluator visit the parts of an expression in one order and test them in one order.
Where no condition leaves a part out, no call leads elsewhere and no equality compares without a
test, the first fault that the checker finds is the fault that the evaluator runs into, unless
values or streams stop it before.

* `Expr.isPlain` — a node of an expression of this kind.
* `Env.Describes` — an environment holds the types of the values of another.
* `Run.Follows` — however a run ends, its end agrees with the verdict of a check.

Principal results: `eval_follows` — evaluation follows inference, node by node;
`first_error_agrees` — what this says of the two kinds of faults and of values.
-/

set_option autoImplicit false

namespace ExprLang

/-! ## Runs that follow a check -/

namespace Run

variable {α β γ δ : Type}

/-- However the run finishes, the way it ends agrees with what the check says. -/
def Follows (m : Run β) (R : α → β → Prop) (s : Check α) : Prop :=
  ∀ (c : Console) (r : Except RunError β) (d : Console), m.on c = some (r, d) →
    Agree R s.verdict r

theorem Follows.unfinished {R : α → β → Prop} {s : Check α} : (unfinished : Run β).Follows R s := by
  intro c r d h
  cases h

theorem Follows.pure {R : α → β → Prop} {a : α} {b : β} (h : R a b) :
    (pure b : Run β).Follows R (pure a) := by
  intro c r d hr
  cases hr
  exact h

theorem Follows.ofExcept {R : α → β → Prop} {s : Check α} {r : Except RunError β}
    (h : Agree R s.verdict r) : (ofExcept r).Follows R s := by
  intro c r' d hr
  cases hr
  exact h

theorem Follows.bind {R : α → β → Prop} {R' : γ → δ → Prop} {m : Run β} {k : β → Run δ}
    {s : Check α} {l : α → Check γ} (hm : m.Follows R s)
    (hk : ∀ a b, R a b → (k b).Follows R' (l a)) : (m >>= k).Follows R' (s >>= l) := by
  intro c r d h
  rw [Check.verdict_bind]
  rcases run_bind_eq_some.mp h with ⟨e, hfirst, rfl⟩ | ⟨b, c', hfirst, hrest⟩
  · exact (hm c (.error e) d hfirst).bind_error _
  · obtain ⟨a, hs, hab⟩ := (hm c (.ok b) c' hfirst).of_value
    rw [hs]
    exact hk a b hab c' r d hrest

/-- A step that no check corresponds to may only fail dynamically. -/
theorem Follows.after {R : α → δ → Prop} {step : Console → Except RunError β × Console}
    {k : β → Run δ} {s : Check α}
    (hstep : ∀ c, Ends (fun _ => True) (·.isDynamic) (step c).1)
    (hk : ∀ b, (k b).Follows R s) : (ofStep step >>= k).Follows R s := by
  have hfirst : (ofStep step).Follows (fun _ _ => True) (Pure.pure () : Check Unit) := by
    intro c r d hr
    have hs : step c = (r, d) := Option.some.inj hr
    have hc := hstep c
    rw [hs] at hc
    exact .of_ends hc
  have h := hfirst.bind fun _ b _ => hk b
  rwa [pure_bind] at h

end Run

/-! ## Expressions and environments -/

/-- No condition, no call and no equality. -/
def Expr.isPlain : Expr → Bool
  | .ite _ _ _ | .call _ _ | .binop .eq _ _ => false
  | _ => true

theorem Expr.not_isPlain_eq {op : BinOp} {left right : Expr} (h : (binop op left right).isPlain) :
    op ≠ .eq := by
  rintro rfl
  cases h

theorem Expr.calleesFinish_of_isPlain {e : Expr} (h : e.Each (·.isPlain)) (table : FunctionTable)
    (budget : Nat) : e.CalleesFinish table budget := by
  refine h.imp fun n hn => ?_
  cases n with
  | call f args => cases hn
  | _ => trivial

namespace Env

/-- Each name has the type of its value, or neither type nor value. -/
def Describes (types : Env Ty) (values : Env Value) : Prop :=
  ∀ x : Name, types.find? x = (values.find? x).map Value.type

theorem describes_map (values : Env Value) : (values.map Value.type).Describes values :=
  find?_map Value.type values

theorem Describes.bind {types : Env Ty} {values : Env Value} (h : types.Describes values)
    (x : Name) (v : Value) : (types.bind x v.type).Describes (values.bind x v) := by
  intro y
  rw [find?_bind, find?_bind]
  split
  · rfl
  · exact h y

end Env

/-! ## Evaluation follows inference -/

/-- Each part is tested before the next one is looked at, in both passes. -/
theorem parts_follow {β : Type} {table : FunctionTable} {types : Env Ty} {t : Ty} {es : List Expr}
    {f : Expr → Run β}
    (h : ∀ e ∈ es, (f e).Follows (fun _ _ => True) (infer table types e >>= Check.matchType t)) :
    (es.mapM f).Follows (fun _ _ => True) (inferArgs table types (es.map fun _ => t) es) := by
  induction es with
  | nil => exact .pure trivial
  | cons e es ih =>
    rw [List.forall_mem_cons] at h
    rw [List.mapM_cons, List.map_cons, inferArgs, ← bind_assoc]
    refine h.1.bind fun _ b _ => ?_
    rw [← bind_pure (inferArgs _ _ _ _)]
    exact (ih h.2).bind fun _ bs _ => .pure trivial

/-- **Evaluation follows inference.** -/
theorem eval_follows {table : FunctionTable} {n : Nat} {types : Env Ty} {values : Env Value}
    {e : Expr} (he : e.Each (·.isPlain)) (hv : types.Describes values) :
    (eval table n values e).Follows (fun t v => v.type = t) (infer table types e) := by
  induction n generalizing types values e with
  | zero => exact .unfinished
  | succ n ih =>
    obtain ⟨hself, hchildren⟩ := Expr.each_iff.mp he
    -- every child but the body of a `let` is looked at in the environments of its parent
    have hsub : ∀ a ∈ e.children,
        (eval table n values a).Follows (fun t v => v.type = t) (infer table types a) :=
      fun a ha => ih (hchildren a ha) hv
    cases e with
    | lit v => exact .pure rfl
    | var x =>
      rw [infer, eval, hv x]
      cases values.find? x with
      | none => exact .ofExcept (r := .error (.unboundName x)) (.inl rfl)
      | some v => exact .pure rfl
    | binop op left right =>
      have hleft := hsub left (by simp)
      have hright := hsub right (by simp)
      rw [infer, eval]
      refine hleft.bind fun t a ha => hright.bind fun u b hb => ?_
      subst ha hb
      refine .after (fun _ => trivial) fun _ => ?_
      rw [← bind_pure (Run.ofExcept _)]
      have happly := BinOp.apply_agree (Expr.not_isPlain_eq hself) a b
      exact (Run.Follows.ofExcept happly).bind fun _ v hv => .pure hv
    | not e =>
      rw [infer, eval]
      refine (hsub e (by simp)).bind fun t v hvt => ?_
      subst hvt
      exact (Run.Follows.ofExcept (expectBool_agree v)).bind fun _ b _ => .pure rfl
    | letIn x bound body =>
      have hbody := hchildren body (by simp)
      rw [infer, eval]
      refine (hsub bound (by simp)).bind fun t v hvt => ?_
      subst hvt
      exact ih hbody (hv.bind x v)
    | ite test yes no => cases hself
    | call f args => cases hself
    | concat parts =>
      rw [infer, eval]
      refine (parts_follow fun e he => ?_).bind fun _ _ _ => .pure rfl
      refine (hsub e he).bind fun t v hvt => ?_
      subst hvt
      exact .ofExcept (expectString_agree v)
    | print e =>
      rw [infer, eval]
      refine (hsub e (by simp)).bind fun t v hvt => ?_
      subst hvt
      refine (Run.Follows.ofExcept (expectString_agree v)).bind fun _ s _ => ?_
      exact .after (fun c => c.writeLine_ends s) fun _ => .pure rfl
    | input =>
      rw [infer, eval]
      exact .after (fun c => c.readLine_ends) fun _ => .pure rfl
    | cast target e =>
      rw [infer, eval]
      refine (hsub e (by simp)).bind fun t v _ => ?_
      refine .after (fun _ => trivial) fun _ => .ofExcept ?_
      exact .of_ends (cast_ends v target)

/-! ## Main theorem -/

/-- **The first static error is the first dynamic one.** -/
theorem first_error_agrees {table : FunctionTable} {types : Env Ty} {values : Env Value} {e : Expr}
    (he : e.Each (·.isPlain)) (hv : types.Describes values) :
    (∀ n, e.height ≤ n → (eval table n values e).Finishes) ∧
    ∀ (n : Nat) (c : Console) (r : Except RunError Value) (d : Console),
      (eval table n values e).on c = some (r, d) →
      (∀ expected actual, (infer table types e).verdict = .error (.typeMismatch expected actual) →
        ∃ err, r = .error err ∧
          ((∃ found, err = .typeError expected found ∧ found.type = actual) ∨ err.isDynamic)) ∧
      (∀ x, (infer table types e).verdict = .error (.unboundName x) →
        ∃ err, r = .error err ∧ (err = .unboundName x ∨ err.isDynamic)) ∧
      ∀ v, r = .ok v → (infer table types e).verdict = .ok v.type := by
  refine ⟨fun n hn => eval_finishes (Expr.calleesFinish_of_isPlain he table 0) hn values, ?_⟩
  intro n c r d hr
  have hagree := eval_follows he hv c r d hr
  refine ⟨fun expected actual hs => ?_, fun x hs => ?_, fun v hs => ?_⟩
  · rw [hs] at hagree
    obtain ⟨err, rfl, h⟩ := hagree.of_error
    exact ⟨err, rfl, h.imp_left TypingError.predicts_typeMismatch.mp⟩
  · rw [hs] at hagree
    obtain ⟨err, rfl, h⟩ := hagree.of_error
    exact ⟨err, rfl, h.imp_left TypingError.predicts_unboundName.mp⟩
  · subst hs
    obtain ⟨t, ht, rfl⟩ := hagree.of_value
    exact ht

/-- Two faults at once: the operand of the negation comes first. -/
theorem first_error_agrees_two_faults :
    (infer ∅ (Env.empty.bind "n" .int) (.binop .and (.not (.var "n")) (.var "y"))).verdict =
      .error (.typeMismatch .bool .int) ∧
    ∃ d, (eval ∅ 3 (Env.empty.bind "n" (.int 3)) (.binop .and (.not (.var "n")) (.var "y"))).on
        (.faultless []) = some (.error (.typeError .bool (.int 3)), d) ∧
      ∃ err, Except.error (.typeError .bool (.int 3)) = (.error err : Except RunError Value) ∧
        ((∃ found, err = .typeError .bool found ∧ found.type = .int) ∨ err.isDynamic) := by
  have he : (Expr.binop .and (.not (.var "n")) (.var "y")).Each (·.isPlain) := by decide
  have hv : (Env.empty.bind "n" .int).Describes (Env.empty.bind "n" (.int 3)) :=
    (Env.describes_map .empty).bind "n" (.int 3)
  have hinfer : (infer ∅ (Env.empty.bind "n" .int)
      (.binop .and (.not (.var "n")) (.var "y"))).verdict = .error (.typeMismatch .bool .int) := rfl
  obtain ⟨hfin, hends⟩ := @first_error_agrees ∅ _ _ _ he hv
  obtain ⟨⟨r, d⟩, hd⟩ := hfin 3 (by decide) (.faultless [])
  obtain rfl : r = .error (.typeError .bool (.int 3)) := by cases hd; rfl
  exact ⟨hinfer, d, hd, (hends 3 _ _ d hd).1 .bool .int hinfer⟩

end ExprLang
