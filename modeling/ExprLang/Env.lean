import ExprLang.Text.Quoted
import ExprLang.Value

/-!
# Environments

An environment binds names to types or to values.  Extending one makes a new environment; the
latest binding of a name is the one that is found.

* `Env.find?` — the payload of the latest binding of a name.
* `Env.bind`, `Env.bindAll` — extension by one binding, or by several in order.
* `Env.bindings` — all bindings, latest first, those no longer found included.
* `Env.text` — the bindings as messages show them.

Principal results: `find?_bind`, `bindings_bindAll`, `find?_bindAll`.
-/

set_option autoImplicit false

namespace ExprLang

structure Env (α : Type) where
  /-- Latest first. -/
  bindings : List (Name × α)

namespace Env

variable {α β : Type}

def empty : Env α := ⟨[]⟩

def isEmpty (env : Env α) : Bool := env.bindings.isEmpty

def find? (env : Env α) (x : Name) : Option α := env.bindings.lookup x

def bind (env : Env α) (x : Name) (a : α) : Env α := ⟨(x, a) :: env.bindings⟩

/-- Binds in the order of the list, so its last entry is the latest. -/
def bindAll (env : Env α) (entries : List (Name × α)) : Env α :=
  entries.foldl (fun env entry => env.bind entry.1 entry.2) env

def map (f : α → β) (env : Env α) : Env β := ⟨env.bindings.map fun entry => (entry.1, f entry.2)⟩

/-- What is said of a name that an environment does not bind. -/
def unboundText (x : Name) : String := "Could not find unbound variable " ++ x

/-- The bindings between braces, latest first, with names quoted. -/
def text (payloadText : α → String) (env : Env α) : String :=
  let entries := env.bindings.map fun entry => Quoted.quote entry.1 ++ ": " ++ payloadText entry.2
  "\x7b" ++ String.intercalate ", " entries ++ "\x7d"

/-! ## Laws -/

@[simp]
theorem find?_empty (x : Name) : (empty : Env α).find? x = none := rfl

theorem find?_bind (env : Env α) (x y : Name) (a : α) :
    (env.bind x a).find? y = if y = x then some a else env.find? y := by
  by_cases h : y = x
  · simp [find?, bind, h]
  · have hb : (y == x) = false := by simpa using h
    simp only [find?, bind, List.lookup_cons, hb, if_neg h]

@[simp]
theorem bindAll_nil (env : Env α) : env.bindAll [] = env := rfl

@[simp]
theorem bindAll_cons (env : Env α) (entry : Name × α) (entries : List (Name × α)) :
    env.bindAll (entry :: entries) = (env.bind entry.1 entry.2).bindAll entries := rfl

theorem bindAll_append (env : Env α) (entries more : List (Name × α)) :
    env.bindAll (entries ++ more) = (env.bindAll entries).bindAll more := by
  simp [bindAll]

theorem bindings_bindAll (env : Env α) (entries : List (Name × α)) :
    (env.bindAll entries).bindings = entries.reverse ++ env.bindings := by
  induction entries generalizing env with
  | nil => rfl
  | cons entry entries ih => simp [ih, bind]

/-- Old bindings are found where the new ones have no entry. -/
theorem find?_bindAll (env : Env α) (entries : List (Name × α)) (x : Name) :
    (env.bindAll entries).find? x = (entries.reverse.lookup x).or (env.find? x) := by
  rw [find?, bindings_bindAll, List.lookup_append]
  rfl

theorem lookup_reverse_eq_none {entries : List (Name × α)} {x : Name} :
    entries.reverse.lookup x = none ↔ x ∉ entries.map Prod.fst := by
  simp only [List.lookup_eq_none_iff, List.mem_reverse, bne_iff_ne, List.mem_map, not_exists,
    not_and]
  exact forall₂_congr fun entry _ => ne_comm

theorem find?_map (f : α → β) (env : Env α) (x : Name) :
    (env.map f).find? x = (env.find? x).map f := by
  obtain ⟨entries⟩ := env
  induction entries with
  | nil => rfl
  | cons entry entries ih =>
    obtain ⟨y, a⟩ := entry
    simp only [find?, map, List.map_cons, List.lookup_cons] at ih ⊢
    split
    · rfl
    · exact ih

end Env

end ExprLang
