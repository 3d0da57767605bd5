import ExprLang.Expr.Nodes

/-!
# Properties of all nodes

* `Expr.children` — the parts of a node, from left to right.
* `Expr.Each` — the expression and all its parts have a property.
* `Expr.height` — how deep an expression is nested.

Principal results: `each_iff` — a property of all nodes is one of the expression and of all nodes of
its children; `height_lt_of_mem_children` — a child is lower than its parent; `inductionOnChildren` —
so what children hand on to their parents holds of all expressions.
-/

set_option autoImplicit false

namespace ExprLang.Expr

@[simp]
def children : Expr → List Expr
  | .lit _ | .var _ | .input => []
  | .binop _ left right => [left, right]
  | .letIn _ bound body => [bound, body]
  | .ite test yes no => [test, yes, no]
  | .call _ args => args
  | .concat parts => parts
  | .not e | .print e | .cast _ e => [e]

theorem nodesAll_eq_flatMap (es : List Expr) : nodesAll es = es.flatMap nodes := by
  induction es with
  | nil => rfl
  | cons e es ih => rw [nodesAll, ih, List.flatMap_cons]

theorem nodes_eq_cons (e : Expr) : e.nodes = e :: e.children.flatMap nodes := by
  cases e <;> simp [nodes, nodesAll_eq_flatMap]

/-! ## Every node -/

/-- Every node of the expression satisfies `P`. -/
def Each (P : Expr → Prop) (e : Expr) : Prop := ∀ n ∈ e.nodes, P n

instance (P : Expr → Prop) [DecidablePred P] (e : Expr) : Decidable (e.Each P) :=
  inferInstanceAs (Decidable (∀ n ∈ e.nodes, P n))

variable {P Q : Expr → Prop}

theorem Each.imp {e : Expr} (h : e.Each P) (hPQ : ∀ n, P n → Q n) : e.Each Q :=
  fun n hn => hPQ n (h n hn)

theorem each_iff {e : Expr} : e.Each P ↔ P e ∧ ∀ a ∈ e.children, a.Each P := by
  rw [Each, nodes_eq_cons, List.forall_mem_cons, List.forall_mem_flatMap]
  rfl

/-! ## Height -/

mutual

/-- The number of nodes on the longest way down. -/
def height : Expr → Nat
  | .lit _ | .var _ | .input => 1
  | .binop _ left right => max (height left) (height right) + 1
  | .letIn _ bound body => max (height bound) (height body) + 1
  | .ite test yes no => max (height test) (max (height yes) (height no)) + 1
  | .call _ args => heightAll args + 1
  | .concat parts => heightAll parts + 1
  | .not e | .print e | .cast _ e => height e + 1

def heightAll : List Expr → Nat
  | [] => 0
  | e :: es => max (height e) (heightAll es)

end

theorem height_pos (e : Expr) : 0 < e.height := by
  cases e <;> simp [height]

theorem height_le_heightAll {e : Expr} {es : List Expr} (h : e ∈ es) :
    e.height ≤ heightAll es := by
  induction es with
  | nil => cases h
  | cons e' es ih =>
    rw [heightAll]
    rcases List.mem_cons.mp h with rfl | h
    · omega
    · have := ih h
      omega

theorem height_lt_of_mem_children {a e : Expr} (h : a ∈ e.children) : a.height < e.height := by
  cases e with
  | lit v | var x | input => cases h
  | call f args | concat parts =>
    rw [children] at h
    have := height_le_heightAll h
    simp only [height]
    omega
  | binop _ _ _ | letIn _ _ _ | ite _ _ _ | not _ | print _ | cast _ _ =>
    simp only [children, List.mem_cons, List.not_mem_nil, or_false] at h
    simp only [height]
    rcases h with rfl | rfl | rfl <;> omega

/-- Induction on the children of a node, whatever kind it is of. -/
theorem inductionOnChildren {motive : Expr → Prop}
    (node : ∀ e, (∀ a ∈ e.children, motive a) → motive e) (e : Expr) : motive e :=
  node e fun a _ => inductionOnChildren node a
termination_by e.height
decreasing_by exact height_lt_of_mem_children ‹_›

end ExprLang.Expr
