import ExprLang.BinOp
import ExprLang.Value

/-!
# Expressions, functions and programs

Programs are trees; there is no surface form.

* `Expr` — expressions.
* `Expr.inductionOn` — induction with one hypothesis for every argument or part.
* `Definition`, `Program` — named functions with typed parameters, and a list of them with a main
  expression.  Functions may call each other and themselves.
-/

set_option autoImplicit false

namespace ExprLang

inductive Expr where
  | lit (v : Value)
  | var (x : Name)
  | binop (op : BinOp) (left right : Expr)
  | not (e : Expr)
  /-- Binds `x` to the value of `bound` in `body` only. -/
  | letIn (x : Name) (bound body : Expr)
  | ite (test yes no : Expr)
  | call (f : Name) (args : List Expr)
  /-- Joins strings. -/
  | concat (parts : List Expr)
  /-- Writes a string as a line. -/
  | print (e : Expr)
  /-- Reads a line. -/
  | input
  | cast (target : Ty) (e : Expr)

namespace Expr

def int (n : Int32) : Expr := .lit (.int n)
def bool (b : Bool) : Expr := .lit (.bool b)
def string (s : String) : Expr := .lit (.string s)

/-- Induction on an expression, with a hypothesis for each member of an argument list. -/
theorem inductionOn {motive : Expr → Prop} (e : Expr)
    (lit : ∀ v, motive (.lit v))
    (var : ∀ x, motive (.var x))
    (binop : ∀ op l r, motive l → motive r → motive (.binop op l r))
    (not : ∀ e, motive e → motive (.not e))
    (letIn : ∀ x b k, motive b → motive k → motive (.letIn x b k))
    (ite : ∀ t y n, motive t → motive y → motive n → motive (.ite t y n))
    (call : ∀ f args, (∀ a ∈ args, motive a) → motive (.call f args))
    (concat : ∀ parts, (∀ a ∈ parts, motive a) → motive (.concat parts))
    (print : ∀ e, motive e → motive (.print e))
    (input : motive .input)
    (cast : ∀ t e, motive e → motive (.cast t e)) : motive e :=
  @Expr.rec motive (fun es => ∀ a ∈ es, motive a)
    lit var binop not letIn ite call concat print input cast
    (fun _ h => absurd h List.not_mem_nil)
    (fun _ _ he hes a ha => (List.mem_cons.mp ha).elim (fun h => h ▸ he) (hes a)) e

end Expr

/-- A function of its parameters alone; of two parameters of one name the later one counts. -/
structure Definition where
  name : Name
  params : List (Name × Ty)
  result : Ty
  body : Expr

structure Program where
  functions : List Definition
  main : Expr

end ExprLang
