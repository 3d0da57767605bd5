import ExprLang.Expr

/-!
# Variables of an expression

* `Expr.freeVars` — the variables that an expression takes from its environment.  A call takes
  those of its arguments only, for a function's body sees nothing but its parameters.
* `Expr.rename` — puts a new name in place of the free occurrences of another.

Principal results: `mem_freeVarsAll`, `renameAll_eq_map` — both work on a list of expressions
member by member.
-/

set_option autoImplicit false

namespace ExprLang.Expr

mutual

def freeVars : Expr → List Name
  | .lit _ => []
  | .var x => [x]
  | .binop _ left right => freeVars left ++ freeVars right
  | .not e => freeVars e
  | .letIn x bound body => freeVars bound ++ (freeVars body).filter (· ≠ x)
  | .ite test yes no => freeVars test ++ freeVars yes ++ freeVars no
  | .call _ args => freeVarsAll args
  | .concat parts => freeVarsAll parts
  | .print e => freeVars e
  | .input => []
  | .cast _ e => freeVars e

def freeVarsAll : List Expr → List Name
  | [] => []
  | e :: es => freeVars e ++ freeVarsAll es

end

mutual

/-- Replaces the free occurrences of `x` by `y`.  A binding of `y` around one of them would
capture it; where `y` does not occur there is none. -/
def rename (x y : Name) : Expr → Expr
  | .lit v => .lit v
  | .var z => .var (if z = x then y else z)
  | .binop op left right => .binop op (rename x y left) (rename x y right)
  | .not e => .not (rename x y e)
  | .letIn z bound body => .letIn z (rename x y bound) (if z = x then body else rename x y body)
  | .ite test yes no => .ite (rename x y test) (rename x y yes) (rename x y no)
  | .call f args => .call f (renameAll x y args)
  | .concat parts => .concat (renameAll x y parts)
  | .print e => .print (rename x y e)
  | .input => .input
  | .cast target e => .cast target (rename x y e)

def renameAll (x y : Name) : List Expr → List Expr
  | [] => []
  | e :: es => rename x y e :: renameAll x y es

end

/-! ## Laws -/

theorem mem_freeVarsAll {x : Name} {es : List Expr} :
    x ∈ freeVarsAll es ↔ ∃ e ∈ es, x ∈ freeVars e := by
  induction es with
  | nil => simp [freeVarsAll]
  | cons e es ih => simp [freeVarsAll, ih]

theorem mem_freeVars_letIn {x y : Name} {bound body : Expr} :
    y ∈ freeVars (.letIn x bound body) ↔ y ∈ freeVars bound ∨ y ∈ freeVars body ∧ y ≠ x := by
  simp [freeVars]

theorem renameAll_eq_map (x y : Name) (es : List Expr) :
    renameAll x y es = es.map (rename x y) := by
  induction es with
  | nil => rfl
  | cons e es ih => simp [renameAll, ih]

end ExprLang.Expr
