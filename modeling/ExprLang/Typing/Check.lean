import ExprLang.Report

/-!
# Checks

A check ends in a verdict and leaves notes behind on its way there.  The notes do not influence
the verdict.

* `Check` — a verdict with the notes taken, oldest first.
* `Check.fail`, `Check.note`, `Check.ofOption`, `Check.ensure`, `Check.matchType` — the elementary
  checks.

Principal results: `Check` is a lawful monad; `verdict_bind` — the verdict of a sequence is the
sequence of the verdicts.
-/

set_option autoImplicit false

namespace ExprLang

/-- What is noted while checking. -/
inductive Note where
  | checking (f : Name)
  | trusting (source target : Ty)
  | mainType (t : Ty)
  deriving DecidableEq, Repr

def Note.log : Note → LogLine
  | .checking f => ⟨.info, "Typechecking function " ++ f⟩
  | .trusting source target =>
    ⟨.debug, "Trusting cast from " ++ source.text ++ " to " ++ target.text⟩
  | .mainType t => ⟨.info, "Main expression has type " ++ t.text⟩

structure Check (α : Type) where
  verdict : Except TypingError α
  notes : List Note

namespace Check

variable {α β : Type}

/-- The notes of both parts are kept; a failed check is not continued. -/
protected def bind (m : Check α) (k : α → Check β) : Check β :=
  match m.verdict with
  | .ok a => ⟨(k a).verdict, m.notes ++ (k a).notes⟩
  | .error e => ⟨.error e, m.notes⟩

instance : Monad Check where
  pure a := ⟨.ok a, []⟩
  bind := Check.bind

def fail (e : TypingError) : Check α := ⟨.error e, []⟩

def note (n : Note) : Check Unit := ⟨.ok (), [n]⟩

def ofExcept (r : Except TypingError α) : Check α := ⟨r, []⟩

def ofOption (a? : Option α) (e : TypingError) : Check α :=
  match a? with
  | some a => pure a
  | none => fail e

/-- Fails unless `p` holds. -/
def ensure (p : Prop) [Decidable p] (e : TypingError) : Check Unit :=
  if p then pure () else fail e

/-- The actual type must be the expected one. -/
def matchType (expected actual : Ty) : Check Unit :=
  ensure (expected = actual) (.typeMismatch expected actual)

/-! ## Laws -/

@[simp]
theorem verdict_pure (a : α) : (pure a : Check α).verdict = .ok a := rfl

@[simp]
theorem verdict_fail (e : TypingError) : (fail e : Check α).verdict = .error e := rfl

@[simp]
theorem verdict_note (n : Note) : (note n).verdict = .ok () := rfl

@[simp]
theorem verdict_ofExcept (r : Except TypingError α) : (ofExcept r).verdict = r := rfl

@[simp]
theorem verdict_bind (m : Check α) (k : α → Check β) :
    (m >>= k).verdict = m.verdict >>= fun a => (k a).verdict := by
  obtain ⟨verdict, notes⟩ := m
  cases verdict <;> rfl

@[simp]
theorem verdict_ofOption (a? : Option α) (e : TypingError) :
    (ofOption a? e).verdict = match a? with | some a => .ok a | none => .error e := by
  cases a? <;> rfl

@[simp]
theorem verdict_ensure (p : Prop) [Decidable p] (e : TypingError) :
    (ensure p e).verdict = if p then .ok () else .error e := by
  unfold ensure
  split <;> rfl

@[simp]
theorem verdict_matchType (expected actual : Ty) :
    (matchType expected actual).verdict =
      if expected = actual then .ok () else .error (.typeMismatch expected actual) :=
  verdict_ensure _ _

theorem id_map_check (m : Check α) : id <$> m = m := by
  obtain ⟨verdict, notes⟩ := m
  cases verdict <;> simp [Functor.map, Check.bind]

theorem pure_bind_check (a : α) (k : α → Check β) : pure a >>= k = k a := by
  simp [bind, Check.bind, pure]

theorem bind_assoc_check {γ : Type} (m : Check α) (k : α → Check β) (l : β → Check γ) :
    m >>= k >>= l = m >>= fun a => k a >>= l := by
  obtain ⟨verdict, notes⟩ := m
  cases verdict with
  | error e => rfl
  | ok a =>
    simp only [bind, Check.bind]
    cases (k a).verdict <;> simp

instance : LawfulMonad Check :=
  LawfulMonad.mk' Check id_map_check pure_bind_check bind_assoc_check

end Check

end ExprLang
