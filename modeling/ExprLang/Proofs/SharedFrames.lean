import ExprLang.Env.Frames

/-!
# Frames with many owners

Frames are shared, and giving up one environment must not take a frame from another.  It does not,
because every frame knows exactly how many references there are to it: those of other frames and those
from outside.  A frame is given back only with the last reference, so nothing that can still be reached
is lost.

* `referrers` — how many entries of an array refer to a frame; `refersTo` — whether one reference does.
* `Frames.Counts` — each frame's count is that of all references to it.
* `Frames.Keeps` — what is met from a reference on is the same as before.

Principal results: `Counts.retain`, `Counts.release`, `Counts.extend`, `Counts.extendAll` — every
operation keeps the counts, and each environment that is not given up keeps its bindings.
-/

set_option autoImplicit false

namespace ExprLang

variable {α β : Type}

/-! ## Numbered entries -/

section Entries

variable {cells : Array (Option β)} {entry : β} {i : Nat}

theorem lt_size_of_entry (h : cells[i]?.join = some entry) : i < cells.size :=
  (Array.getElem?_eq_some_iff.mp (Option.join_eq_some_iff.mp h)).1

theorem entry_push (cells : Array (Option β)) (cell : Option β) (j : Nat) :
    (cells.push cell)[j]?.join = if j = cells.size then cell else cells[j]?.join := by
  rw [Array.getElem?_push]
  split <;> rfl

theorem entry_setIfInBounds (h : cells[i]?.join = some entry) (cell : Option β) (j : Nat) :
    (cells.setIfInBounds i cell)[j]?.join = if j = i then cell else cells[j]?.join := by
  rw [Array.getElem?_setIfInBounds, if_pos (lt_size_of_entry h)]
  by_cases hj : j = i
  · rw [if_pos hj, if_pos hj.symm]
    rfl
  · rw [if_neg hj, if_neg (Ne.symm hj)]

/-! ### References -/

def refersTo (target : Option Nat) (k : Nat) : Nat := if target = some k then 1 else 0

@[simp]
theorem refersTo_none (k : Nat) : refersTo none k = 0 := rfl

@[simp]
theorem refersTo_self (k : Nat) : refersTo (some k) k = 1 := if_pos rfl

theorem refersTo_of_ne {k j : Nat} (h : k ≠ j) : refersTo (some j) k = 0 :=
  if_neg fun heq => h (Option.some.inj heq).symm

/-- These references, and one more. -/
def withRef (outside : Nat → Nat) (target : Option Nat) (k : Nat) : Nat :=
  outside k + refersTo target k

theorem withRef_comm (outside : Nat → Nat) (first second : Option Nat) :
    withRef (withRef outside first) second = withRef (withRef outside second) first :=
  funext fun k => Nat.add_right_comm (outside k) (refersTo first k) (refersTo second k)

theorem withRef_pos (outside : Nat → Nat) {target : Option Nat} {k : Nat} (h : target = some k) :
    0 < withRef outside target k := by
  rw [h, withRef, refersTo_self]
  omega

/-- How many entries have frame `k` for their target. -/
def referrers (target : β → Option Nat) (cells : Array (Option β)) (k : Nat) : Nat :=
  cells.countP fun cell => cell.bind target = some k

variable {target : β → Option Nat}

theorem referrers_push (cells : Array (Option β)) (cell : Option β) :
    referrers target (cells.push cell) = withRef (referrers target cells) (cell.bind target) := by
  funext k
  simp [referrers, Array.countP_push, withRef, refersTo]

/-- An entry's own reference is among those that are counted. -/
theorem refersTo_le_referrers (h : cells[i]?.join = some entry) (k : Nat) :
    refersTo (target entry) k ≤ referrers target cells k := by
  obtain ⟨hi, hcell⟩ := Array.getElem?_eq_some_iff.mp (Option.join_eq_some_iff.mp h)
  have hle := Array.boole_getElem_le_countP (p := fun cell => cell.bind target = some k) hi
  simpa [hcell, refersTo, referrers] using hle

theorem referrers_pos {k : Nat} (h : cells[i]?.join = some entry) (hk : target entry = some k) :
    0 < referrers target cells k := by
  have hle : refersTo (target entry) k ≤ referrers target cells k := refersTo_le_referrers h k
  rw [hk, refersTo_self] at hle
  exact hle

/-- The old entry's reference is no longer counted, the new one's is. -/
theorem withRef_referrers_setIfInBounds (h : cells[i]?.join = some entry) (cell : Option β) :
    withRef (referrers target (cells.setIfInBounds i cell)) (target entry) =
      withRef (referrers target cells) (cell.bind target) := by
  funext k
  have hle : refersTo (target entry) k ≤ referrers target cells k := refersTo_le_referrers h k
  obtain ⟨hi, hcell⟩ := Array.getElem?_eq_some_iff.mp (Option.join_eq_some_iff.mp h)
  have hset : referrers target (cells.setIfInBounds i cell) k =
      referrers target cells k - refersTo (target entry) k + refersTo (cell.bind target) k := by
    rw [referrers, Array.setIfInBounds, dif_pos hi, Array.countP_set, hcell]
    simp [referrers, refersTo]
  rw [withRef, withRef, hset]
  omega

end Entries

/-! ## Counts -/

namespace Frames

variable {frames : Frames α} {frame : Frame α} {head other : Option Nat} {i : Nat}
  {bindings : List (Name × α)} {outside : Nat → Nat}

/-- Nobody owns a frame that was given back. -/
def owners (frames : Frames α) (k : Nat) : Nat := (frames.frame? k).elim 0 Frame.owners

def children (frames : Frames α) (k : Nat) : Nat := referrers Frame.parent frames.cells k

/-- A frame is owned by its children and by as many references from outside as `outside` says. -/
def Counts (frames : Frames α) (outside : Nat → Nat) : Prop :=
  ∀ k, frames.owners k = outside k + frames.children k

/-- The bindings from a reference on, wherever a reference from outside leads. -/
def Keeps (frames frames' : Frames α) (outside : Nat → Nat) : Prop :=
  ∀ (head : Option Nat) (bindings : List (Name × α)), (∀ i, head = some i → 0 < outside i) →
    frames.Chain head bindings → frames'.Chain head bindings

theorem owners_eq (h : frames.frame? i = some frame) : frames.owners i = frame.owners := by
  rw [owners, h]
  rfl

/-- Where there is a reference from outside there is a frame. -/
theorem Counts.exists_frame (h : frames.Counts outside) (hi : 0 < outside i) :
    ∃ frame, frames.frame? i = some frame := by
  have hcount := h i
  cases hframe : frames.frame? i with
  | some frame => exact ⟨frame, rfl⟩
  | none =>
    rw [owners, hframe, Option.elim_none] at hcount
    omega

/-! ## Single frames -/

theorem frame?_put (h : frames.frame? i = some frame) (cell : Option (Frame α)) (j : Nat) :
    (frames.put i cell).frame? j = if j = i then cell else frames.frame? j :=
  entry_setIfInBounds h cell j

theorem children_put (h : frames.frame? i = some frame) (cell : Option (Frame α)) (k : Nat) :
    (frames.put i cell).children k + refersTo frame.parent k =
      frames.children k + refersTo (cell.bind Frame.parent) k :=
  congrFun (withRef_referrers_setIfInBounds h cell) k

theorem frame?_push (frames : Frames α) (frame : Frame α) (j : Nat) :
    (frames.push frame).frame? j = if j = frames.cells.size then some frame else frames.frame? j :=
  entry_push _ _ j

theorem children_push (frames : Frames α) (frame : Frame α) (k : Nat) :
    (frames.push frame).children k = frames.children k + refersTo frame.parent k :=
  congrFun (referrers_push _ _) k

/-- A chain does not depend on counts. -/
theorem Chain.mono {frames' : Frames α} (h : frames.Chain head bindings)
    (hframes : ∀ j frame, frames.frame? j = some frame →
      ∃ n, frames'.frame? j = some { frame with owners := n }) : frames'.Chain head bindings := by
  induction h with
  | nil => exact .nil
  | cons hframe _ ih =>
    obtain ⟨n, hn⟩ := hframes _ _ hframe
    have hcons := Chain.cons hn ih
    exact hcons

theorem Chain.unique {others : List (Name × α)} (h : frames.Chain head bindings)
    (h' : frames.Chain head others) : bindings = others := by
  induction h generalizing others with
  | nil =>
    cases h'
    rfl
  | cons hframe _ ih =>
    cases h' with
    | cons hframe' hparent =>
      cases hframe.symm.trans hframe'
      rw [ih hparent]

theorem Chain.head_eq_none_iff (h : frames.Chain head bindings) :
    head = none ↔ bindings = [] := by
  cases h with
  | nil => simp
  | cons hframe hparent => simp

theorem Chain.put_owners (hframe : frames.frame? i = some frame) (n : Nat)
    (h : frames.Chain head bindings) :
    (frames.put i (some { frame with owners := n })).Chain head bindings := by
  refine h.mono fun j g hg => ?_
  rw [frame?_put hframe]
  split
  · rename_i hj
    subst hj
    cases hframe.symm.trans hg
    exact ⟨n, rfl⟩
  · exact ⟨g.owners, hg⟩

theorem owners_put (hframe : frames.frame? i = some frame) (cell : Option (Frame α)) (k : Nat) :
    (frames.put i cell).owners k = if k = i then cell.elim 0 Frame.owners else frames.owners k := by
  rw [owners, frame?_put hframe]
  split <;> rfl

theorem children_put_owners (hframe : frames.frame? i = some frame) (n k : Nat) :
    (frames.put i (some { frame with owners := n })).children k = frames.children k := by
  have := children_put hframe (some { frame with owners := n }) k
  simpa using this

/-- A chain that does not start at a frame without children does not pass it. -/
theorem Chain.put_none (hframe : frames.frame? i = some frame) (hchildren : frames.children i = 0)
    (hhead : head ≠ some i) (h : frames.Chain head bindings) :
    (frames.put i none).Chain head bindings := by
  induction h with
  | nil => exact .nil
  | @cons j g _ hg _ ih =>
    have hparent : g.parent ≠ some i := by
      intro hp
      have hle : refersTo g.parent i ≤ frames.children i := refersTo_le_referrers hg i
      rw [hp, refersTo, if_pos rfl, hchildren] at hle
      omega
    refine .cons ?_ (ih hparent)
    rw [frame?_put hframe, if_neg fun hj => hhead (congrArg some hj), hg]

/-! ## Operations -/

/-- Another count for one frame is in order if it is the number of references to it. -/
theorem Counts.put_owners {outside' : Nat → Nat} (h : frames.Counts outside)
    (hframe : frames.frame? i = some frame) {n : Nat} (hi : n = outside' i + frames.children i)
    (hother : ∀ k, k ≠ i → outside' k = outside k) :
    (frames.put i (some { frame with owners := n })).Counts outside' := by
  intro k
  rw [owners_put hframe, children_put_owners hframe]
  split
  · rename_i hk
    rw [hk]
    exact hi
  · rename_i hk
    rw [hother k hk]
    exact h k

theorem Counts.retain (h : frames.Counts outside) (hhead : frames.Chain head bindings) :
    (frames.retain head).Counts (withRef outside head) := by
  cases hhead with
  | nil => exact h
  | @cons i frame _ hframe _ =>
    have hi : frame.owners = outside i + frames.children i := (owners_eq hframe).symm.trans (h i)
    simp only [Frames.retain, hframe]
    refine h.put_owners hframe ?_ fun k hk => ?_
    · rw [withRef, refersTo_self]
      omega
    · rw [withRef, refersTo_of_ne hk, Nat.add_zero]

theorem Chain.retain (other : Option Nat) (h : frames.Chain head bindings) :
    (frames.retain other).Chain head bindings := by
  unfold Frames.retain
  split
  · exact h
  · split
    · exact h
    · rename_i hframe
      exact h.put_owners hframe _

/-- **Giving up a reference** takes it off the counts and leaves alone what others refer to.  When a
frame is given back, its reference to its parent is the next one to give up; it was counted among the
children before and counts as one from outside then. -/
theorem Counts.release (h : frames.Counts (withRef outside head)) :
    (frames.release head).Counts outside ∧ frames.Keeps (frames.release head) outside := by
  fun_induction Frames.release frames head with
  | case1 frames => exact ⟨h, fun _ _ _ hchain => hchain⟩
  | case2 frames i hframe =>
    obtain ⟨frame, hsome⟩ := h.exists_frame (withRef_pos outside rfl)
    rw [hframe] at hsome
    cases hsome
  | case3 frames i frame hframe howners ih =>
    have hi : frame.owners = withRef outside (some i) i + frames.children i :=
      (owners_eq hframe).symm.trans (h i)
    rw [howners, withRef, refersTo_self] at hi
    have hfreed : (frames.put i none).Counts (withRef outside frame.parent) := by
      intro k
      have hchildren := children_put hframe none k
      rw [Option.bind_none, refersTo_none] at hchildren
      rw [owners_put hframe, withRef]
      split
      · rename_i hk
        subst hk
        rw [Option.elim_none]
        omega
      · rename_i hk
        have hcount := h k
        rw [withRef, refersTo_of_ne hk] at hcount
        omega
    obtain ⟨hcounts, hkeeps⟩ := ih hfreed
    refine ⟨hcounts, fun other bindings hother hchain => hkeeps other bindings hother ?_⟩
    refine hchain.put_none hframe (by omega) ?_
    rintro rfl
    have := hother i rfl
    omega
  | case4 frames i frame hframe howners =>
    have hi : frame.owners = withRef outside (some i) i + frames.children i :=
      (owners_eq hframe).symm.trans (h i)
    rw [withRef, refersTo_self] at hi
    refine ⟨h.put_owners hframe (by omega) fun k hk => ?_,
      fun other bindings _ hchain => hchain.put_owners hframe _⟩
    rw [withRef, refersTo_of_ne hk, Nat.add_zero]

/-- No frame has the number that is given out next, and nothing refers to it. -/
theorem Counts.eq_zero_of_size (h : frames.Counts outside) :
    outside frames.cells.size = 0 ∧ frames.children frames.cells.size = 0 := by
  have hcount := h frames.cells.size
  have hnone : frames.frame? frames.cells.size = none := by
    rw [frame?, Array.getElem?_eq_none (Nat.le_refl _)]
    rfl
  rw [owners, hnone, Option.elim_none] at hcount
  omega

theorem size_retain (frames : Frames α) (head : Option Nat) :
    (frames.retain head).cells.size = frames.cells.size := by
  unfold Frames.retain
  split
  · rfl
  · split
    · rfl
    · exact Array.size_setIfInBounds

theorem Chain.push (frame : Frame α) (h : frames.Chain head bindings) :
    (frames.push frame).Chain head bindings := by
  refine h.mono fun j g hg => ⟨g.owners, ?_⟩
  rw [frame?_push, if_neg (Nat.ne_of_lt (lt_size_of_entry hg)), hg]

/-- A new frame with one owner outside takes over a reference. -/
theorem Counts.push {frame : Frame α} (h : frames.Counts (withRef outside frame.parent))
    (howners : frame.owners = 1) :
    (frames.push frame).Counts (withRef outside (some frames.cells.size)) := by
  intro k
  have hk := h k
  obtain ⟨hnew, hchildren⟩ := h.eq_zero_of_size
  rw [withRef] at hk hnew
  rw [owners, frame?_push, children_push, withRef]
  split
  · rename_i heq
    subst heq
    rw [Option.elim_some, howners, refersTo_self]
    omega
  · rename_i hne
    rw [refersTo_of_ne hne]
    exact hk.trans (by omega)

/-- **Extending** makes a chain with one more binding in front and leaves all others as they are. -/
theorem Counts.extend (h : frames.Counts outside) (hhead : frames.Chain head bindings) (x : Name)
    (a : α) :
    (frames.extend head x a).1.Counts (withRef outside (frames.extend head x a).2) ∧
    (frames.extend head x a).1.Chain (frames.extend head x a).2 ((x, a) :: bindings) := by
  have hsize := size_retain frames head
  constructor
  · have hpush : ((frames.retain head).push ⟨x, a, head, 1⟩).Counts
        (withRef outside (some (frames.retain head).cells.size)) := (h.retain hhead).push rfl
    rwa [hsize] at hpush
  · have hframe : (frames.extend head x a).1.frame? frames.cells.size = some ⟨x, a, head, 1⟩ := by
      rw [Frames.extend, frame?_push, if_pos hsize.symm]
    have hcons := Chain.cons hframe ((hhead.retain head).push _)
    exact hcons

theorem Chain.extend (h : frames.Chain other bindings) (head : Option Nat) (x : Name) (a : α) :
    (frames.extend head x a).1.Chain other bindings := (h.retain head).push _

/-- **Extending by several bindings** does the same, and the environments in between leave nothing
behind. -/
theorem Counts.extendAll (h : frames.Counts (withRef outside head))
    (hhead : frames.Chain head bindings) (entries : List (Name × α)) :
    (frames.extendAll head entries).1.Counts (withRef outside (frames.extendAll head entries).2) ∧
    (frames.extendAll head entries).1.Chain (frames.extendAll head entries).2
      (entries.reverse ++ bindings) ∧
    frames.Keeps (frames.extendAll head entries).1 outside := by
  induction entries generalizing frames head bindings with
  | nil => exact ⟨h, hhead, fun _ _ _ hchain => hchain⟩
  | cons entry entries ih =>
    obtain ⟨hcounts, hchain⟩ := h.extend hhead entry.1 entry.2
    rw [withRef_comm] at hcounts
    obtain ⟨hreleased, hkeeps⟩ := hcounts.release
    have hlonger := hkeeps _ _ (fun _ => withRef_pos outside) hchain
    obtain ⟨hcounts', hchain', hkeeps'⟩ := ih hreleased hlonger
    rw [List.reverse_cons, List.append_assoc]
    refine ⟨hcounts', hchain', fun other others hother hold => hkeeps' other others hother ?_⟩
    refine hkeeps other others (fun i hi => ?_) (hold.extend head entry.1 entry.2)
    exact Nat.lt_of_lt_of_le (hother i hi) (Nat.le_add_right _ _)

end Frames

end ExprLang
