import Mathlib.Data.List.Forall2
import ExprLang.Eval.Run

/-!
# Conduct of runs

A conduct says how a run may change the console and which errors it may end with.  Whether a run
obeys a conduct is settled part by part: a sequence obeys it if its parts do, whatever value the
first part hands to the second.

* `Ends` — a run ended with a value of one kind or with an error of another.
* `Conduct` — the admitted changes of the console, closed under sequence, and the admitted errors.
* `Conduct.ofEvents` — the conduct that restricts the events of a run; `Conduct.ofFault` — the one
  that restricts its errors.
* `Run.Obeys` — a run keeps to a conduct, and its value has a given property.

Principal results: `Obeys.bind`, `Obeys.mapM` — the rules for sequences and for lists.

Nothing is said of a run that does not finish.
-/

set_option autoImplicit false

namespace ExprLang

variable {α β γ : Type}

/-- A value that satisfies `post`, or an error that satisfies `fault`. -/
def Ends (post : α → Prop) (fault : RunError → Prop) : Except RunError α → Prop
  | .ok a => post a
  | .error e => fault e

theorem Ends.mono {post post' : α → Prop} {fault fault' : RunError → Prop} {r : Except RunError α}
    (h : Ends post fault r) (hpost : ∀ a, post a → post' a) (hfault : ∀ e, fault e → fault' e) :
    Ends post' fault' r := by
  cases r with
  | ok a => exact hpost a h
  | error e => exact hfault e h

theorem Ends.bind {post : α → Prop} {post' : β → Prop} {fault : RunError → Prop}
    {r : Except RunError α} {k : α → Except RunError β} (h : Ends post fault r)
    (hk : ∀ a, post a → Ends post' fault (k a)) : Ends post' fault (r >>= k) := by
  cases r with
  | ok a => exact hk a h
  | error e => exact h

/-- What a run may do to its console, and how it may fail. -/
structure Conduct where
  step : Console → Console → Prop
  fault : RunError → Prop
  refl (c : Console) : step c c
  trans {c d e : Console} : step c d → step d e → step c e

/-! ## Events -/

/-- `d` has the history of `c`, continued by events that satisfy `P`. -/
def Console.Continues (P : Event → Prop) (c d : Console) : Prop :=
  ∃ later, d.events = later ++ c.events ∧ ∀ e ∈ later, P e

theorem Console.Continues.refl (P : Event → Prop) (c : Console) : c.Continues P c :=
  ⟨[], rfl, fun _ h => by cases h⟩

theorem Console.Continues.trans {P : Event → Prop} {c d e : Console} (hcd : c.Continues P d)
    (hde : d.Continues P e) : c.Continues P e := by
  obtain ⟨first, hd, hfirst⟩ := hcd
  obtain ⟨second, he, hsecond⟩ := hde
  refine ⟨second ++ first, by rw [he, hd, List.append_assoc], fun x hx => ?_⟩
  rcases List.mem_append.mp hx with hx | hx
  · exact hsecond x hx
  · exact hfirst x hx

theorem Console.Continues.of_cons {P : Event → Prop} {c d : Console} {e : Event}
    (hd : d.events = e :: c.events) (he : P e) : c.Continues P d :=
  ⟨[e], hd, fun x hx => by rw [List.mem_singleton.mp hx]; exact he⟩

theorem Console.Continues.mono {P Q : Event → Prop} {c d : Console} (h : c.Continues P d)
    (hPQ : ∀ e, P e → Q e) : c.Continues Q d := by
  obtain ⟨later, hd, hP⟩ := h
  exact ⟨later, hd, fun e he => hPQ e (hP e he)⟩

theorem Console.Continues.of_events_eq_cons {P : Event → Prop} {c d : Console} {e : Event}
    (h : c.Continues P d) (hd : d.events = e :: c.events) : P e := by
  obtain ⟨later, hlater, hP⟩ := h
  have hone : [e] = later := List.append_cancel_right (hd.symm.trans hlater)
  exact hP e (hone ▸ List.mem_singleton.mpr rfl)

/-- What is true of all events is true of those of both parts. -/
theorem Console.Continues.split {P Q Q' : Event → Prop} {c d e : Console} (h : c.Continues P e)
    (hcd : c.Continues Q d) (hde : d.Continues Q' e) : c.Continues P d ∧ d.Continues P e := by
  obtain ⟨later, hlater, hP⟩ := h
  obtain ⟨first, hd, -⟩ := hcd
  obtain ⟨second, he, -⟩ := hde
  have hall : later = second ++ first := by
    rw [he, hd, ← List.append_assoc] at hlater
    exact (List.append_cancel_right hlater).symm
  subst hall
  rw [List.forall_mem_append] at hP
  exact ⟨⟨first, hd, hP.2⟩, second, he, hP.1⟩

/-- Every event satisfies `P`; streams may be used at will. -/
def Conduct.ofEvents (P : Event → Prop) (fault : RunError → Prop) : Conduct where
  step := Console.Continues P
  fault := fault
  refl := Console.Continues.refl P
  trans := Console.Continues.trans

/-- Only errors are restricted. -/
def Conduct.ofFault (fault : RunError → Prop) : Conduct where
  step _ _ := True
  fault := fault
  refl _ := trivial
  trans _ _ := trivial

/-- Nothing is forbidden. -/
def Conduct.any : Conduct where
  step _ _ := True
  fault _ := True
  refl _ := trivial
  trans _ _ := trivial

/-! ## Rules -/

namespace Run

/-- However the run finishes, it has kept to the conduct, and a value satisfies `post`. -/
def Obeys (m : Run α) (K : Conduct) (post : α → Prop) : Prop :=
  ∀ (c : Console) (r : Except RunError α) (d : Console), m.on c = some (r, d) →
    K.step c d ∧ Ends post K.fault r

variable {K : Conduct}

theorem Obeys.any (m : Run α) : m.Obeys .any fun _ => True := by
  intro c r d _
  cases r <;> exact ⟨trivial, trivial⟩

theorem Obeys.unfinished {post : α → Prop} : (unfinished : Run α).Obeys K post := by
  intro c r d h
  cases h

theorem Obeys.pure {post : α → Prop} {a : α} (ha : post a) : (pure a : Run α).Obeys K post := by
  intro c r d h
  cases h
  exact ⟨K.refl c, ha⟩

theorem Obeys.weaken {m : Run α} {post post' : α → Prop} (h : m.Obeys K post)
    (hpost : ∀ a, post a → post' a) : m.Obeys K post' := by
  intro c r d hr
  obtain ⟨hstep, hends⟩ := h c r d hr
  exact ⟨hstep, hends.mono hpost fun _ he => he⟩

theorem Obeys.ofExcept {post : α → Prop} {r : Except RunError α} (h : Ends post K.fault r) :
    (ofExcept r).Obeys K post := by
  intro c r' d hr
  cases hr
  exact ⟨K.refl c, h⟩

theorem Obeys.ofOption {a? : Option α} {e : RunError} (h : a? = none → K.fault e) :
    (ofOption a? e).Obeys K fun a => a? = some a := by
  intro c r d hr
  rw [run_ofOption] at hr
  cases a? with
  | none =>
    cases hr
    exact ⟨K.refl c, h rfl⟩
  | some a =>
    cases hr
    exact ⟨K.refl c, rfl⟩

theorem Obeys.ensure {p : Prop} [Decidable p] {e : RunError} (h : ¬ p → K.fault e) :
    (ensure p e).Obeys K fun _ => p := by
  intro c r d hr
  rw [run_ensure] at hr
  split at hr
  · rename_i hp
    cases hr
    exact ⟨K.refl c, hp⟩
  · rename_i hp
    cases hr
    exact ⟨K.refl c, h hp⟩

/-- A step obeys a conduct if it does so on every console. -/
theorem Obeys.ofStep {post : α → Prop} {step : Console → Except RunError α × Console}
    (h : ∀ c, K.step c (step c).2 ∧ Ends post K.fault (step c).1) : (ofStep step).Obeys K post := by
  intro c r d hr
  have hs : step c = (r, d) := Option.some.inj hr
  have hc := h c
  rw [hs] at hc
  exact hc

theorem Obeys.record {e : Event} (h : ∀ c : Console, K.step c (c.record e)) :
    (record e).Obeys K fun _ => True :=
  .ofStep fun c => ⟨h c, trivial⟩

theorem Obeys.bind {m : Run α} {k : α → Run β} {post : α → Prop} {post' : β → Prop}
    (hm : m.Obeys K post) (hk : ∀ a, post a → (k a).Obeys K post') : (m >>= k).Obeys K post' := by
  intro c r d h
  rcases run_bind_eq_some.mp h with ⟨e, hfirst, rfl⟩ | ⟨a, c', hfirst, hrest⟩
  · exact hm c (.error e) d hfirst
  · obtain ⟨hstep, hpost⟩ := hm c (.ok a) c' hfirst
    obtain ⟨hstep', hends⟩ := hk a hpost c' r d hrest
    exact ⟨K.trans hstep hstep', hends⟩

/-- Run by run, each member of a list with what is wanted of its value. -/
theorem Obeys.mapM {f : α → Run β} {post : γ → β → Prop} {wants : List γ} {as : List α}
    (h : List.Forall₂ (fun want a => (f a).Obeys K (post want)) wants as) :
    (as.mapM f).Obeys K fun bs => List.Forall₂ post wants bs := by
  induction h with
  | nil =>
    rw [List.mapM_nil]
    exact .pure .nil
  | cons ha _ ih =>
    rw [List.mapM_cons]
    exact ha.bind fun b hb => ih.bind fun bs hbs => .pure (.cons hb hbs)

end Run

end ExprLang
