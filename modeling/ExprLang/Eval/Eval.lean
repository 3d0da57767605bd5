import ExprLang.Env
import ExprLang.Eval.Apply
import ExprLang.Eval.Cast
import ExprLang.Eval.Run
import ExprLang.FunctionTable

/-!
# Evaluation

* `eval` — the run of an expression.  Its budget bounds how deep evaluations may be nested; a run
  that would need to nest deeper does not finish.
* `Program.run` — the run of a program's main expression.
* `ampleBudget` — a budget that lets every run finish that can be carried out at all.

Operands, arguments and parts are evaluated from left to right.  Both operands of an operator are
evaluated before either is looked at; the parts of a concatenation are looked at one by one.  A
function's body sees its parameters alone.
-/

set_option autoImplicit false

namespace ExprLang

/-- Evaluates an expression whose variables have the values of `env`. -/
def eval (table : FunctionTable) : Nat → Env Value → Expr → Run Value
  | 0, _, _ => Run.unfinished
  | _ + 1, _, .lit v => pure v
  | _ + 1, env, .var x => Run.ofOption (env.find? x) (.unboundName x)
  | budget + 1, env, .binop op left right => do
    let a ← eval table budget env left
    let b ← eval table budget env right
    Run.record (.applying op a b)
    Run.ofExcept (op.apply a b)
  | budget + 1, env, .not e => do
    let b ← Run.ofExcept (← eval table budget env e).expectBool
    return .bool !b
  | budget + 1, env, .letIn x bound body => do
    eval table budget (env.bind x (← eval table budget env bound)) body
  | budget + 1, env, .ite test yes no => do
    if ← Run.ofExcept (← eval table budget env test).expectBool then
      eval table budget env yes
    else
      eval table budget env no
  | budget + 1, env, .call f args => do
    let d ← Run.ofOption table[f]? (.undefinedFunction f)
    Run.ensure (d.params.length = args.length)
      (.arityMismatch f d.params.length args.length)
    let values ← args.mapM (eval table budget env)
    Run.record (.calling f values)
    eval table budget (Env.empty.bindAll ((d.params.map Prod.fst).zip values)) d.body
  | budget + 1, env, .concat parts => do
    let texts ← parts.mapM fun e => do
      Run.ofExcept (← eval table budget env e).expectString
    return .string (String.join texts)
  | budget + 1, env, .print e => do
    Run.writeLine (← Run.ofExcept (← eval table budget env e).expectString)
    return .unit
  | _ + 1, _, .input => do
    return .string (← Run.readLine)
  | budget + 1, env, .cast target e => do
    let v ← eval table budget env e
    Run.record (.casting v target)
    Run.ofExcept (cast v target)

/-- More nested evaluations than any machine has room for. -/
def ampleBudget : Nat := 1 <<< 62

/-- Of several definitions of one name the last one is run. -/
def Program.run (budget : Nat) (p : Program) : Run Value :=
  eval p.table budget Env.empty p.main

end ExprLang
