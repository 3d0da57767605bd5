import ExprLang.Eval.Eval
import ExprLang.Proofs.OperationErrors

/-!
# Composition of runs

However long a run is, it meets its console in three ways only: it notes an event, reads a line or
writes a line.  In between it computes, and what it computes never fails for the streams.  What these
steps have and sequences keep, every evaluation has.

* `Event.isTransfer` — a line read or bytes written.
* `Console.Step` — the three ways.
* `Computed` — a result that owes nothing to the streams.
* `Run.Composed` — a run is a sequence of steps and of results computed.

Principal results: `eval_composed` — every evaluation is composed; `Composed.obeys` — a composed run
keeps to whatever conduct its steps keep to.
-/

set_option autoImplicit false

namespace ExprLang

/-- A stream is used. -/
def Event.isTransfer : Event → Bool
  | .reading _ | .writing _ => true
  | .calling _ _ | .applying _ _ _ | .casting _ _ => false

/-- What a run does to its console at once. -/
inductive Console.Step : {α : Type} → (Console → Except RunError α × Console) → Prop
  | note {e : Event} : e.isTransfer = false → Step fun c => (.ok (), c.record e)
  | readLine : Step Console.readLine
  | writeLine (s : String) : Step fun c => c.writeLine s

variable {α β : Type}

/-! ## Computed results -/

/-- The input is used up, or a stream failed. -/
def RunError.isOfStream : RunError → Bool
  | .endOfInput | .channel _ => true
  | _ => false

abbrev Computed (r : Except RunError α) : Prop :=
  Ends (fun _ => True) (fun e => e.isOfStream = false) r

theorem Tests.computed {expected : Ty} {v : Value} {r : Except RunError α}
    (h : Tests expected v r) : Computed r :=
  h.fails fun _ => rfl

theorem BinOp.apply_computed (op : BinOp) (left right : Value) :
    Computed (op.apply left right) := by
  refine (op.apply_fails left right).weaken fun e he => ?_
  cases he <;> rfl

theorem cast_computed (v : Value) (target : Ty) : Computed (cast v target) := by
  refine (cast_fails v target).weaken ?_
  rintro _ ⟨-, rfl⟩
  rfl

/-! ## Composed runs -/

namespace Run

inductive Composed : {α : Type} → Run α → Prop
  | unfinished {α : Type} : Composed (unfinished : Run α)
  | ofExcept {α : Type} {r : Except RunError α} : Computed r → Composed (ofExcept r)
  | step {α : Type} {s : Console → Except RunError α × Console} : Console.Step s →
      Composed (ofStep s)
  | bind {α β : Type} {m : Run α} {k : α → Run β} : Composed m → (∀ a, Composed (k a)) →
      Composed (m >>= k)

theorem Composed.pure (a : α) : (pure a : Run α).Composed := .ofExcept (r := .ok a) trivial

theorem Composed.ofOption (a? : Option α) {e : RunError} (he : e.isOfStream = false) :
    (ofOption a? e).Composed := by
  cases a? with
  | none => exact .ofExcept (r := .error e) he
  | some a => exact .pure a

theorem Composed.ensure (p : Prop) [Decidable p] {e : RunError} (he : e.isOfStream = false) :
    (ensure p e).Composed := by
  unfold Run.ensure
  split
  · exact .pure ()
  · exact .ofExcept (r := .error e) he

theorem Composed.mapM {f : α → Run β} (hf : ∀ a, (f a).Composed) (as : List α) :
    (as.mapM f).Composed := by
  induction as with
  | nil => exact .pure []
  | cons a as ih =>
    rw [List.mapM_cons]
    exact (hf a).bind fun _ => ih.bind fun _ => .pure _

/-- **A composed run keeps to the conduct of its steps.** -/
theorem Composed.obeys {K : Conduct} {m : Run α} (hm : m.Composed)
    (hstep : ∀ {γ : Type} {s : Console → Except RunError γ × Console}, Console.Step s →
      ∀ c, K.step c (s c).2)
    (hfault : ∀ e, K.fault e) : m.Obeys K fun _ => True := by
  have hends : ∀ {γ : Type} (r : Except RunError γ), Ends (fun _ => True) K.fault r := by
    intro γ r
    cases r with
    | ok a => trivial
    | error e => exact hfault e
  induction hm with
  | unfinished => exact .unfinished
  | ofExcept _ => exact .ofExcept (hends _)
  | step hs => exact .ofStep fun c => ⟨hstep hs c, hends _⟩
  | bind _ _ ihm ihk => exact ihm.bind fun a _ => ihk a

end Run

/-- **Every evaluation is composed.** -/
theorem eval_composed (table : FunctionTable) (n : Nat) (env : Env Value) (e : Expr) :
    (eval table n env e).Composed := by
  induction n generalizing env e with
  | zero => exact .unfinished
  | succ n ih =>
    cases e with
    | lit v => exact .pure v
    | var x => exact .ofOption _ rfl
    | binop op left right =>
      rw [eval]
      refine (ih env left).bind fun a => (ih env right).bind fun b => ?_
      exact (Run.Composed.step (.note rfl)).bind fun _ => .ofExcept (op.apply_computed a b)
    | not e =>
      rw [eval]
      refine (ih env e).bind fun v => ?_
      exact (Run.Composed.ofExcept v.expectBool_tests.computed).bind fun b => .pure _
    | letIn x bound body =>
      rw [eval]
      exact (ih env bound).bind fun v => ih _ body
    | ite test yes no =>
      rw [eval]
      refine (ih env test).bind fun v => ?_
      refine (Run.Composed.ofExcept v.expectBool_tests.computed).bind fun b => ?_
      split
      · exact ih env yes
      · exact ih env no
    | call f args =>
      rw [eval]
      refine (Run.Composed.ofOption _ rfl).bind fun d => (Run.Composed.ensure _ rfl).bind fun _ => ?_
      refine (Run.Composed.mapM (ih env) args).bind fun vs => ?_
      exact (Run.Composed.step (.note rfl)).bind fun _ => ih _ d.body
    | concat parts =>
      rw [eval]
      refine Run.Composed.bind (.mapM (fun e => ?_) parts) fun texts => .pure _
      exact (ih env e).bind fun v => .ofExcept v.expectString_tests.computed
    | print e =>
      rw [eval]
      refine (ih env e).bind fun v => ?_
      refine (Run.Composed.ofExcept v.expectString_tests.computed).bind fun s => ?_
      exact (Run.Composed.step (.writeLine s)).bind fun _ => .pure _
    | input => exact (Run.Composed.step .readLine).bind fun s => .pure _
    | cast target e =>
      rw [eval]
      refine (ih env e).bind fun v => ?_
      exact (Run.Composed.step (.note rfl)).bind fun _ => .ofExcept (cast_computed v target)

end ExprLang
