import ExprLang.Proofs.Composed

/-!
# Two runs side by side

One expression is run on two consoles.  As long as the consoles are in step, so are the runs; the
second run may end early, and then the two part.

* `Coupling` — which consoles are in step, and what is known once the runs have parted.  Every step
  keeps the consoles in step or parts the runs, and no step undoes what is known after the parting.
* `Coupling.Ends` — two runs ended alike and in step, or the second one ended early.
* `Run.Coupled` — on consoles in step, if the first run finishes, so does the second one, and they
  have ended like this.

Principal results: `Coupled.bind` — sequences keep it; `Composed.coupled` — so all composed runs have
it.
-/

set_option autoImplicit false

namespace ExprLang

structure Coupling where
  inStep : Console → Console → Prop
  /-- The first run has come to the first console; the second run ended with the error and on the
  second console. -/
  parted : Console → RunError → Console → Prop
  keeps {α : Type} {s : Console → Except RunError α × Console} {c c' : Console} :
    Console.Step s → inStep c c' →
      ((s c').1 = (s c).1 ∧ inStep (s c).2 (s c').2) ∨
        ∃ e, (s c').1 = .error e ∧ parted (s c).2 e (s c').2
  lasts {α : Type} {s : Console → Except RunError α × Console} {c d : Console} {e : RunError} :
    Console.Step s → parted c e d → parted (s c).2 e d

variable {α β : Type}

/-- Both ended alike and in step, or the second one ended early. -/
def Coupling.Ends (K : Coupling) (r : Except RunError α) (d : Console) (r' : Except RunError α)
    (d' : Console) : Prop :=
  (r' = r ∧ K.inStep d d') ∨ ∃ e, r' = .error e ∧ K.parted d e d'

/-- The conduct that keeps what is known after a parting. -/
def Coupling.afterParting (K : Coupling) (e : RunError) (d : Console) : Conduct where
  step c c' := K.parted c e d → K.parted c' e d
  fault _ := True
  refl _ h := h
  trans h h' hc := h' (h hc)

namespace Run

def Coupled (m : Run α) (K : Coupling) : Prop :=
  ∀ (c c' : Console), K.inStep c c' → ∀ r d, m.on c = some (r, d) →
    ∃ r' d', m.on c' = some (r', d') ∧ K.Ends r d r' d'

variable {K : Coupling}

theorem Coupled.unfinished : (unfinished : Run α).Coupled K := by
  intro c c' _ r d h
  cases h

theorem Coupled.ofExcept (r : Except RunError α) : (ofExcept r).Coupled K := by
  intro c c' hc r d h
  cases h
  exact ⟨r, c', rfl, .inl ⟨rfl, hc⟩⟩

theorem Coupled.ofStep {s : Console → Except RunError α × Console} (hs : Console.Step s) :
    (ofStep s).Coupled K := by
  intro c c' hc r d h
  have hsc : s c = (r, d) := Option.some.inj h
  have hkeeps := K.keeps hs hc
  rw [hsc] at hkeeps
  exact ⟨(s c').1, (s c').2, rfl, hkeeps⟩

/-- Whatever the first run goes on with after a parting, it may not undo what is known. -/
theorem Coupled.bind {m : Run α} {k : α → Run β} (hm : m.Coupled K) (hk : ∀ a, (k a).Coupled K)
    (hafter : ∀ a e d, (k a).Obeys (K.afterParting e d) fun _ => True) : (m >>= k).Coupled K := by
  intro c c' hc r d h
  rcases run_bind_eq_some.mp h with ⟨e, hfirst, rfl⟩ | ⟨a, d₁, hfirst, hrest⟩
  · obtain ⟨r', d', hfirst', hends⟩ := hm c c' hc _ d hfirst
    rcases hends with ⟨rfl, hd⟩ | ⟨e', rfl, hparted⟩
    · exact ⟨.error e, d', run_bind_eq_some.mpr (.inl ⟨e, hfirst', rfl⟩), .inl ⟨rfl, hd⟩⟩
    · exact ⟨.error e', d', run_bind_eq_some.mpr (.inl ⟨e', hfirst', rfl⟩),
        .inr ⟨e', rfl, hparted⟩⟩
  · obtain ⟨r', d₁', hfirst', hends⟩ := hm c c' hc _ d₁ hfirst
    rcases hends with ⟨rfl, hd⟩ | ⟨e', rfl, hparted⟩
    · obtain ⟨r', d', hrest', hends⟩ := hk a d₁ d₁' hd r d hrest
      exact ⟨r', d', run_bind_eq_some.mpr (.inr ⟨a, d₁', hfirst', hrest'⟩), hends⟩
    · obtain ⟨hkeep, -⟩ := hafter a e' d₁' d₁ r d hrest
      exact ⟨.error e', d₁', run_bind_eq_some.mpr (.inl ⟨e', hfirst', rfl⟩),
        .inr ⟨e', rfl, hkeep hparted⟩⟩

/-- **Composed runs are coupled.** -/
theorem Composed.coupled {m : Run α} (hm : m.Composed) (K : Coupling) : m.Coupled K := by
  induction hm with
  | unfinished => exact .unfinished
  | ofExcept _ => exact .ofExcept _
  | step hs => exact .ofStep hs
  | bind _ hk ihm ihk =>
    refine ihm.bind ihk fun a e d => ?_
    exact (hk a).obeys (fun hs c => K.lasts hs) fun _ => trivial

end Run

end ExprLang
