import ExprLang.Eval.Eval
import ExprLang.Typing.Infer

/-!
# Sessions

A session checks and evaluates expressions one after the other on one console.  It holds the
definitions made so far and a stack of environments, of which the top one is in use.

* `Session.step` — one command, with its reply.
* `Session.evaluate` — an expression is checked and then run, whatever the check said.

The input goes on where the last command left it, also after an error.
-/

set_option autoImplicit false

namespace ExprLang

structure Session where
  functions : List Definition
  top : Env Value
  /-- The environments under the top one, the nearest first. -/
  below : List (Env Value)
  console : Console

inductive Command where
  | eval (e : Expr)
  /-- Evaluates and binds the value in the top environment. -/
  | letIn (x : Name) (e : Expr)
  | define (d : Definition)
  /-- Puts a copy of the top environment on the stack. -/
  | push
  /-- Takes the top environment from the stack, unless it is the only one. -/
  | pop
  | bindings

inductive Reply where
  /-- The check, the result, and the console with the events of this command alone. -/
  | evaluated (check : Check Ty) (result : Except RunError Value) (after : Console)
  | defined (declared : Except TypingError FunctionTable) (check : Check Unit)
  | depth (n : Nat)
  | bindings (entries : List (Name × Value))

/-- The log of a reply, the check's part first. -/
def Reply.log : Reply → List LogLine
  | .evaluated check _ after => check.notes.map Note.log ++ after.log
  | .defined _ check => check.notes.map Note.log
  | .depth _ | .bindings _ => []

namespace Session

def start (functions : List Definition) (env : Env Value) (console : Console) : Session :=
  ⟨functions, env, [], console⟩

def table (s : Session) : FunctionTable := .ofDefinitions s.functions

def depth (s : Session) : Nat := s.below.length + 1

def evaluate (budget : Nat) (s : Session) (e : Expr) :
    Option (Reply × Except RunError Value × Session) :=
  let check := infer s.table (s.top.map Value.type) e
  match (eval s.table budget s.top e).on s.console.forget with
  | some (result, console) =>
    some (.evaluated check result console, result, { s with console := console })
  | none => none

def step (budget : Nat) (s : Session) : Command → Option (Reply × Session)
  | .eval e => (s.evaluate budget e).map fun (reply, _, s) => (reply, s)
  | .letIn x e =>
    (s.evaluate budget e).map fun
      | (reply, .ok v, s) => (reply, { s with top := s.top.bind x v })
      | (reply, .error _, s) => (reply, s)
  | .define d =>
    let s := { s with functions := s.functions ++ [d] }
    some (.defined (declare s.functions) (checkDefinition s.table d), s)
  | .push =>
    let s := { s with below := s.top :: s.below }
    some (.depth s.depth, s)
  | .pop =>
    let s := match s.below with
      | env :: below => { s with top := env, below := below }
      | [] => s
    some (.depth s.depth, s)
  | .bindings => some (.bindings s.top.bindings, s)

/-- The replies to a list of commands. -/
def run (budget : Nat) (s : Session) : List Command → Option (List Reply × Session)
  | [] => some ([], s)
  | command :: commands => do
    let (reply, s) ← s.step budget command
    let (replies, s) ← run budget s commands
    return (reply :: replies, s)

end Session

end ExprLang
