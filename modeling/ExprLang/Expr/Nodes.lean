import ExprLang.Expr

/-!
# Nodes of an expression

* `Expr.nodes` — the expression and all its parts, each part behind the one that holds it.
* `Expr.callees` — the functions it calls, by name.
* `Expr.Mentions` — a name occurs in it as a variable or is bound in it.

Principal results: `mem_nodesAll`, `mem_callees`.
-/

set_option autoImplicit false

namespace ExprLang.Expr

mutual

def nodes (e : Expr) : List Expr :=
  e :: match e with
    | .lit _ | .var _ | .input => []
    | .binop _ left right => nodes left ++ nodes right
    | .letIn _ bound body => nodes bound ++ nodes body
    | .ite test yes no => nodes test ++ nodes yes ++ nodes no
    | .call _ args => nodesAll args
    | .concat parts => nodesAll parts
    | .not e | .print e | .cast _ e => nodes e

def nodesAll : List Expr → List Expr
  | [] => []
  | e :: es => nodes e ++ nodesAll es

end

/-- The function that a node calls itself. -/
def callee? : Expr → Option Name
  | .call f _ => some f
  | _ => none

def callees (e : Expr) : List Name := e.nodes.filterMap callee?

def Mentions (x : Name) (e : Expr) : Prop :=
  ∃ n ∈ e.nodes, n = .var x ∨ ∃ bound body, n = .letIn x bound body

/-! ## Laws -/

theorem mem_nodes_self (e : Expr) : e ∈ nodes e := by
  cases e <;> simp [nodes]

theorem mem_nodesAll {n : Expr} {es : List Expr} : n ∈ nodesAll es ↔ ∃ e ∈ es, n ∈ nodes e := by
  induction es with
  | nil => simp [nodesAll]
  | cons e es ih => simp [nodesAll, ih]

theorem mem_callees {f : Name} {e : Expr} : f ∈ callees e ↔ ∃ args, .call f args ∈ nodes e := by
  rw [callees, List.mem_filterMap]
  constructor
  · rintro ⟨n, hn, hf⟩
    cases n <;> simp only [callee?, Option.some.injEq, reduceCtorEq] at hf
    exact ⟨_, hf ▸ hn⟩
  · rintro ⟨args, h⟩
    exact ⟨_, h, rfl⟩

end ExprLang.Expr
