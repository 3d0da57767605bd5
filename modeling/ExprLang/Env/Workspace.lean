import ExprLang.Env
import ExprLang.Text.Decimal

/-!
# Environments side by side

A workspace numbers environments.  Each extension or copy of a live environment takes the next
free number and leaves all others as they are; a number that was dropped is not used again.

* `Workspace.step` — one operation on the environment of a given number, with its answer.
* `Workspace.run` — a list of operations from the workspace that holds one empty environment.

An operation on a number that is not live has no answer.
-/

set_option autoImplicit false

namespace ExprLang

/-- The environment with number `i` stands at place `i`, or `none` once it was dropped. -/
structure Workspace (α : Type) where
  slots : Array (Option (Env α))

namespace Workspace

variable {α : Type}

/-- What is done with one environment. -/
inductive Operation (α : Type) where
  | extend (entries : List (Name × α))
  | copy
  /-- Binds `stem0`, `stem1`, and so on, `count` names in all, to one payload. -/
  | extendNumbered (stem : String) (count : Nat) (payload : α)
  | drop
  | find (x : Name)
  | bindings
  | isEmpty
  | text

inductive Answer (α : Type) where
  | made (number : Nat)
  | dropped
  | found (payload : α)
  | unbound (x : Name)
  | bindings (entries : List (Name × α))
  | isEmpty (b : Bool)
  | text (s : String)

/-- At first there is the empty environment, with number 0. -/
def initial : Workspace α := ⟨#[some Env.empty]⟩

def env? (w : Workspace α) (number : Nat) : Option (Env α) := w.slots[number]?.join

/-- Gives an environment the next free number. -/
def add (w : Workspace α) (env : Env α) : Answer α × Workspace α :=
  (.made w.slots.size, ⟨w.slots.push (some env)⟩)

def numberedEntries (stem : String) (count : Nat) (payload : α) : List (Name × α) :=
  (List.range count).map fun i => (stem ++ Decimal.ofNat i, payload)

def apply (payloadText : α → String) (w : Workspace α) (number : Nat) (env : Env α) :
    Operation α → Answer α × Workspace α
  | .extend entries => w.add (env.bindAll entries)
  | .copy => w.add env
  | .extendNumbered stem count payload => w.add (env.bindAll (numberedEntries stem count payload))
  | .drop => (.dropped, ⟨w.slots.setIfInBounds number none⟩)
  | .find x =>
    match env.find? x with
    | some payload => (.found payload, w)
    | none => (.unbound x, w)
  | .bindings => (.bindings env.bindings, w)
  | .isEmpty => (.isEmpty env.isEmpty, w)
  | .text => (.text (env.text payloadText), w)

def step (payloadText : α → String) (w : Workspace α) (number : Nat) (op : Operation α) :
    Option (Answer α × Workspace α) :=
  (w.env? number).map fun env => w.apply payloadText number env op

def runFrom (payloadText : α → String) (w : Workspace α) :
    List (Nat × Operation α) → Option (List (Answer α) × Workspace α)
  | [] => some ([], w)
  | (number, op) :: steps => do
    let (answer, w) ← w.step payloadText number op
    let (answers, w) ← runFrom payloadText w steps
    return (answer :: answers, w)

def run (payloadText : α → String) (steps : List (Nat × Operation α)) :
    Option (List (Answer α) × Workspace α) :=
  initial.runFrom payloadText steps

end Workspace

end ExprLang
