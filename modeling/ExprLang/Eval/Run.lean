import ExprLang.Eval.Console

/-!
# Runs

A run starts on a console and, if its budget lets it finish, ends with a value or an error and
the console it leaves.

* `Run` — from a console to the end of the run, or to nothing if the run does not finish.
* `Run.ofExcept`, `Run.ofOption`, `Run.ensure`, `Run.record`, `Run.readLine`, `Run.writeLine`,
  `Run.unfinished` — the elementary runs.

Principal results: `run_bind`, `run_bind_eq_some` — a sequence goes on with the value and the console
that its first part ends with, and ends where that part fails.
-/

set_option autoImplicit false

namespace ExprLang

abbrev Run := ExceptT RunError (StateT Console Option)

namespace Run

variable {α β : Type}

/-- How a run ends that starts on a given console. -/
abbrev on (m : Run α) (c : Console) : Option (Except RunError α × Console) := m.run.run c

/-- A step that always finishes. -/
@[inline]
def ofStep (step : Console → Except RunError α × Console) : Run α :=
  ExceptT.mk fun c => some (step c)

@[inline]
def ofExcept (r : Except RunError α) : Run α := ofStep fun c => (r, c)

@[inline]
def ofOption (a? : Option α) (e : RunError) : Run α :=
  match a? with
  | some a => pure a
  | none => throw e

/-- Fails unless `p` holds. -/
@[inline]
def ensure (p : Prop) [Decidable p] (e : RunError) : Run Unit :=
  if p then pure () else throw e

def unfinished : Run α := ExceptT.mk fun _ => none

def record (e : Event) : Run Unit := ofStep fun c => (.ok (), c.record e)

def readLine : Run String := ofStep Console.readLine

def writeLine (s : String) : Run Unit := ofStep fun c => c.writeLine s

/-! ## Laws -/

@[simp]
theorem run_pure (a : α) (c : Console) : (pure a : Run α).on c = some (.ok a, c) := rfl

@[simp]
theorem run_throw (e : RunError) (c : Console) : (throw e : Run α).on c = some (.error e, c) := rfl

@[simp]
theorem run_ofExcept (r : Except RunError α) (c : Console) : (ofExcept r).on c = some (r, c) := rfl

@[simp]
theorem run_ofOption (a? : Option α) (e : RunError) (c : Console) :
    (ofOption a? e).on c = some (match a? with | some a => .ok a | none => .error e, c) := by
  cases a? <;> rfl

@[simp]
theorem run_ensure (p : Prop) [Decidable p] (e : RunError) (c : Console) :
    (ensure p e).on c = some (if p then .ok () else .error e, c) := by
  unfold ensure
  split <;> rfl

@[simp]
theorem run_unfinished (c : Console) : (unfinished : Run α).on c = none := rfl

@[simp]
theorem run_record (e : Event) (c : Console) : (record e).on c = some (.ok (), c.record e) := rfl

@[simp]
theorem run_readLine (c : Console) : readLine.on c = some c.readLine := rfl

@[simp]
theorem run_writeLine (s : String) (c : Console) : (writeLine s).on c = some (c.writeLine s) := rfl

theorem run_bind (m : Run α) (k : α → Run β) (c : Console) :
    (m >>= k).on c =
      match m.on c with
      | none => none
      | some (.error e, d) => some (.error e, d)
      | some (.ok a, d) => (k a).on d := by
  simp only [on, ExceptT.run_bind, StateT.run_bind]
  cases h : m.run.run c with
  | none => rfl
  | some r =>
    obtain ⟨ending, d⟩ := r
    cases ending <;> rfl

/-- How a sequence can have finished. -/
theorem run_bind_eq_some {m : Run α} {k : α → Run β} {c d : Console} {r : Except RunError β} :
    (m >>= k).on c = some (r, d) ↔
      (∃ e, m.on c = some (.error e, d) ∧ r = .error e) ∨
        ∃ a c', m.on c = some (.ok a, c') ∧ (k a).on c' = some (r, d) := by
  rw [run_bind]
  constructor
  · intro h
    cases hm : m.on c with
    | none =>
      rw [hm] at h
      cases h
    | some first =>
      obtain ⟨r', c'⟩ := first
      rw [hm] at h
      cases r' with
      | error e =>
        cases h
        exact .inl ⟨e, rfl, rfl⟩
      | ok a => exact .inr ⟨a, c', rfl, h⟩
  · rintro (⟨e, hm, rfl⟩ | ⟨a, c', hm, h⟩)
    · rw [hm]
    · rw [hm]
      exact h

end Run

end ExprLang
