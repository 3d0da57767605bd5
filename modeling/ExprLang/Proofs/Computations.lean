import Mathlib.Data.List.Forall2
import ExprLang.Proofs.Observation

/-!
# Computations

A run that uses no stream and does not fail has a value, the same on every console.

* `Console.Untouched` — the streams are as they were, and nothing was read or written in between.
* `Run.Computes` — a run finishes with a value and leaves the streams untouched.

Principal results: `Computes.bind`, `Computes.mapM` — a sequence of computations is one;
`Computes.seen_bind` — a computation at the beginning does not show.
-/

set_option autoImplicit false

namespace ExprLang

variable {α β : Type}

/-- Nothing is seen of what happened after `c`: there were calls, operators and casts alone. -/
structure Console.Untouched (c d : Console) : Prop extends c.Alike d where
  events : c.Continues (·.isTransfer = false) d

namespace Console

theorem Alike.trans {c d e : Console} (h : c.Alike d) (h' : d.Alike e) : c.Alike e :=
  ⟨h'.unread.trans h.unread, h'.room.trans h.room, h'.flushFails.trans h.flushFails,
    h'.output.trans h.output⟩

theorem Untouched.refl (c : Console) : c.Untouched c := ⟨⟨rfl, rfl, rfl, rfl⟩, .refl _ c⟩

theorem Untouched.trans {c d e : Console} (h : c.Untouched d) (h' : d.Untouched e) :
    c.Untouched e :=
  ⟨h.toAlike.trans h'.toAlike, h.events.trans h'.events⟩

theorem untouched_record (c : Console) {ev : Event} (hev : ev.isTransfer = false) :
    c.Untouched (c.record ev) :=
  ⟨c.alike_record hev, .of_cons rfl hev⟩

end Console

namespace Run

def Computes (m : Run α) (a : α) : Prop :=
  ∀ c : Console, ∃ d, m.on c = some (.ok a, d) ∧ c.Untouched d

theorem Computes.pure (a : α) : (pure a : Run α).Computes a := fun c => ⟨c, rfl, .refl c⟩

theorem Computes.ofExcept {r : Except RunError α} {a : α} (h : r = .ok a) :
    (ofExcept r).Computes a := by
  subst h
  exact .pure a

theorem Computes.ofOption {a? : Option α} {a : α} (h : a? = some a) (e : RunError) :
    (ofOption a? e).Computes a := by
  subst h
  exact .pure a

theorem Computes.record {ev : Event} (hev : ev.isTransfer = false) : (record ev).Computes () :=
  fun c => ⟨c.record ev, rfl, c.untouched_record hev⟩

theorem Computes.bind {m : Run α} {k : α → Run β} {a : α} {b : β} (hm : m.Computes a)
    (hk : (k a).Computes b) : (m >>= k).Computes b := by
  intro c
  obtain ⟨d, hd, hcd⟩ := hm c
  obtain ⟨e, he, hde⟩ := hk d
  exact ⟨e, run_bind_eq_some.mpr (.inr ⟨a, d, hd, he⟩), hcd.trans hde⟩

theorem Le.computes {m m' : Run α} {a : α} (hle : m.Le m') (h : m.Computes a) : m'.Computes a := by
  intro c
  obtain ⟨d, hd, hcd⟩ := h c
  exact ⟨d, hle c _ hd, hcd⟩

theorem Computes.mapM {f : α → Run β} {as : List α} {bs : List β}
    (h : List.Forall₂ (fun a b => (f a).Computes b) as bs) : (as.mapM f).Computes bs := by
  induction h with
  | nil => exact .pure []
  | cons hfirst _ ih =>
    rw [List.mapM_cons]
    exact hfirst.bind (ih.bind (.pure _))

/-- **What is computed first does not show.** -/
theorem Computes.seen_bind {m : Run α} {k : α → Run Value} {a : α} (hm : m.Computes a)
    (hk : (k a).Composed) (c : Console) : (m >>= k).seen c = (k a).seen c := by
  obtain ⟨d, hd, hcd⟩ := hm c
  rw [seen_bind_of_value hd]
  exact (hk.seen_congr hcd.toAlike).symm

end Run

end ExprLang
