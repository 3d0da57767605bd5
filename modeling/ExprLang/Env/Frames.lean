import ExprLang.Env.Workspace

/-!
# Environments that share frames

An environment need not hold its bindings.  It may refer to the frame of its latest binding, and each
frame to the frame of the binding before it; then environments made from one another share all frames
but the latest ones.  Every frame counts the references to it and is given back with the last of them.

* `Frame`, `Frames` — a binding in its frame, and all frames by number.
* `Frames.Chain` — the bindings that are met from a reference on.
* `Frames.retain`, `Frames.release` — one reference more, or one less.
* `Frames.extend`, `Frames.extendAll` — new frames in front of old ones.
* `SharedWorkspace` — environments side by side like those of a workspace, on shared frames.
-/

set_option autoImplicit false

namespace ExprLang

variable {α : Type}

structure Frame (α : Type) where
  name : Name
  payload : α
  /-- The frame of the binding before. -/
  parent : Option Nat
  /-- How many environments and frames refer to this one. -/
  owners : Nat

/-- The frame with number `i` stands at place `i`, or `none` once it was given back. -/
structure Frames (α : Type) where
  cells : Array (Option (Frame α))

namespace Frames

def frame? (frames : Frames α) (i : Nat) : Option (Frame α) := frames.cells[i]?.join

/-- What is met from a reference on, one frame after the other, until there is no parent. -/
inductive Chain (frames : Frames α) : Option Nat → List (Name × α) → Prop
  | nil : Chain frames none []
  | cons {i : Nat} {frame : Frame α} {bindings : List (Name × α)} :
      frames.frame? i = some frame → Chain frames frame.parent bindings →
      Chain frames (some i) ((frame.name, frame.payload) :: bindings)

def put (frames : Frames α) (i : Nat) (cell : Option (Frame α)) : Frames α :=
  ⟨frames.cells.setIfInBounds i cell⟩

def push (frames : Frames α) (frame : Frame α) : Frames α := ⟨frames.cells.push (some frame)⟩

/-- The number of frames in use. -/
def size (frames : Frames α) : Nat := frames.cells.countP Option.isSome

theorem size_put_none_lt {frames : Frames α} {i : Nat} {frame : Frame α}
    (h : frames.frame? i = some frame) : (frames.put i none).size < frames.size := by
  obtain ⟨hi, hcell⟩ := Array.getElem?_eq_some_iff.mp (Option.join_eq_some_iff.mp h)
  have hpos := Array.boole_getElem_le_countP (p := Option.isSome) hi
  rw [hcell, Option.isSome_some, if_pos rfl] at hpos
  rw [size, size, put, Array.setIfInBounds, dif_pos hi, Array.countP_set, hcell]
  simp only [Option.isSome_some, Option.isSome_none, if_true, Bool.false_eq_true, if_false]
  omega

/-- A copy of a reference. -/
def retain (frames : Frames α) (head : Option Nat) : Frames α :=
  match head with
  | none => frames
  | some i =>
    match frames.frame? i with
    | none => frames
    | some frame => frames.put i (some { frame with owners := frame.owners + 1 })

/-- Gives up a reference.  A frame with no other one is given back, and then its own reference to
its parent is given up, and so on down to a frame that is still referred to. -/
def release (frames : Frames α) (head : Option Nat) : Frames α :=
  match head with
  | none => frames
  | some i =>
    match _h : frames.frame? i with
    | none => frames
    | some frame =>
      if frame.owners = 1 then (frames.put i none).release frame.parent
      else frames.put i (some { frame with owners := frame.owners - 1 })
termination_by frames.size
decreasing_by exact size_put_none_lt _h

/-- The new environment starts at a new frame, whose parent is the start of the old one. -/
def extend (frames : Frames α) (head : Option Nat) (x : Name) (a : α) : Frames α × Option Nat :=
  ((frames.retain head).push ⟨x, a, head, 1⟩, some frames.cells.size)

/-- Extends in the order of the list.  Each environment is given up once the next one is made. -/
def extendAll (frames : Frames α) (head : Option Nat) : List (Name × α) → Frames α × Option Nat
  | [] => (frames, head)
  | entry :: entries =>
    let longer := frames.extend head entry.1 entry.2
    (longer.1.release head).extendAll longer.2 entries

end Frames

/-! ## Workspaces -/

structure SharedEnv where
  /-- The frame of the latest binding. -/
  head : Option Nat

/-- The environment with number `i` stands at place `i`, or `none` once it was dropped. -/
structure SharedWorkspace (α : Type) where
  frames : Frames α
  slots : Array (Option SharedEnv)

namespace SharedWorkspace

open Workspace (Operation numberedEntries)

def initial : SharedWorkspace α := ⟨⟨#[]⟩, #[some ⟨none⟩]⟩

def env? (s : SharedWorkspace α) (number : Nat) : Option SharedEnv := s.slots[number]?.join

/-- Extends a copy of an environment and gives the new one the next free number. -/
def make (s : SharedWorkspace α) (env : SharedEnv) (entries : List (Name × α)) :
    SharedWorkspace α :=
  let longer := (s.frames.retain env.head).extendAll env.head entries
  ⟨longer.1, s.slots.push (some ⟨longer.2⟩)⟩

/-- The workspace after an operation; looking at an environment leaves all as it is. -/
def apply (s : SharedWorkspace α) (number : Nat) (env : SharedEnv) :
    Operation α → SharedWorkspace α
  | .extend entries => s.make env entries
  | .copy => s.make env []
  | .extendNumbered stem count payload => s.make env (numberedEntries stem count payload)
  | .drop => ⟨s.frames.release env.head, s.slots.setIfInBounds number none⟩
  | .find _ | .bindings | .isEmpty | .text => s

def step (s : SharedWorkspace α) (number : Nat) (op : Operation α) : Option (SharedWorkspace α) :=
  (s.env? number).map fun env => s.apply number env op

def run (steps : List (Nat × Operation α)) : Option (SharedWorkspace α) :=
  steps.foldlM (fun s step => s.step step.1 step.2) initial

end SharedWorkspace

end ExprLang
