import ExprLang.Env
import ExprLang.FunctionTable
import ExprLang.Typing.Check

/-!
# Inference of types

Every expression has at most one type, found from its parts from left to right; the first error
on the way is the verdict.

* `infer` — the type of an expression.
* `inferArgs` — arguments against the types wanted of them, one after the other.
* `checkDefinition` — a body against the signature of its function.
* `declare` — the table of a list of definitions, which no name may repeat.
* `Program.infer` — the type of a program's main expression, once every function is in order.
* `Program.typecheck` — the same check where the type is not asked for.
-/

set_option autoImplicit false

namespace ExprLang

/-- The types of two operands.  Where an operator asks for no type, the right operand must have the
type of the left one. -/
def matchOperands (op : BinOp) (left right : Ty) : Check Unit :=
  match op.operandType? with
  | some expected => do
    Check.matchType expected left
    Check.matchType expected right
  | none => Check.matchType left right

mutual

/-- The type of an expression whose variables have the types of `env`. -/
def infer (table : FunctionTable) (env : Env Ty) : Expr → Check Ty
  | .lit v => pure v.type
  | .var x => Check.ofOption (env.find? x) (.unboundName x)
  | .binop op left right => do
    let t ← infer table env left
    let u ← infer table env right
    matchOperands op t u
    return op.resultType
  | .not e => do
    Check.matchType .bool (← infer table env e)
    return .bool
  | .letIn x bound body => do
    infer table (env.bind x (← infer table env bound)) body
  | .ite test yes no => do
    Check.matchType .bool (← infer table env test)
    let t ← infer table env yes
    Check.matchType t (← infer table env no)
    return t
  | .call f args => do
    let d ← Check.ofOption table[f]? (.undefinedFunction f)
    Check.ensure (d.params.length = args.length)
      (.arityMismatch f d.params.length args.length)
    inferArgs table env (d.params.map Prod.snd) args
    return d.result
  | .concat parts => do
    inferArgs table env (parts.map fun _ => .string) parts
    return .string
  | .print e => do
    Check.matchType .string (← infer table env e)
    return .unit
  | .input => pure .string
  | .cast target e => do
    Check.note (.trusting (← infer table env e) target)
    return target

/-- Each expression must have the type at its place; it is checked before the next one. -/
def inferArgs (table : FunctionTable) (env : Env Ty) : List Ty → List Expr → Check Unit
  | expected :: types, e :: es => do
    Check.matchType expected (← infer table env e)
    inferArgs table env types es
  | _, _ => pure ()

end

/-- A body sees its parameters and nothing else. -/
def checkDefinition (table : FunctionTable) (d : Definition) : Check Unit := do
  Check.note (.checking d.name)
  Check.matchType d.result (← infer table (Env.empty.bindAll d.params) d.body)

/-- Adds a definition, unless its name is taken. -/
def declareNext (table : FunctionTable) (d : Definition) : Except TypingError FunctionTable :=
  if d.name ∈ table then .error (.multipleDefinitions d.name) else .ok (table.insert d.name d)

def declare (defs : List Definition) : Except TypingError FunctionTable :=
  defs.foldlM declareNext ∅

/-- All definitions are checked against the whole table, in order, and then the main
expression. -/
def Program.infer (p : Program) : Check Ty := do
  let table ← Check.ofExcept (declare p.functions)
  p.functions.forM (checkDefinition table)
  let t ← ExprLang.infer table Env.empty p.main
  Check.note (.mainType t)
  return t

def Program.typecheck (p : Program) : Check Unit := do
  let _ ← p.infer
  return ()

end ExprLang
