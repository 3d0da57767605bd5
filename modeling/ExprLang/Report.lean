import ExprLang.Env
import ExprLang.Text.Decimal
import ExprLang.Value

/-!
# Reports

What checker and evaluator have to say: log lines about their progress, and the error that ends
them.

* `LogLine` — a message and its level; `Level.admits` — which levels a chosen verbosity lets through.
* `TypingError` — why an expression or a program has no type.
* `RunError` — why a run ends without a value.
* `TypingError.message`, `RunError.message` — the wording.
* `RunError.isRecoverable` — only a failed cast is something a well-typed program may expect.
-/

set_option autoImplicit false

namespace ExprLang

/-! ## Log lines -/

inductive Level where
  | info
  | debug
  deriving DecidableEq, Repr

def Level.text : Level → String
  | .info => "INFO"
  | .debug => "DEBUG"

/-- At the verbosity `debug` everything is shown, at `info` only what is of that level. -/
def Level.admits (verbosity level : Level) : Bool :=
  verbosity == .debug || level == .info

structure LogLine where
  level : Level
  message : String
  deriving DecidableEq, Repr

def LogLine.text (line : LogLine) : String := line.level.text ++ " " ++ line.message

/-! ## Typing errors -/

inductive TypingError where
  | typeMismatch (expected actual : Ty)
  | unboundName (x : Name)
  | undefinedFunction (f : Name)
  | arityMismatch (f : Name) (expected actual : Nat)
  | multipleDefinitions (f : Name)
  deriving DecidableEq, Repr

/-- How a wrong number of arguments is put into words, when checking as well as when running. -/
def arityText (f : Name) (expected actual : Nat) : String :=
  "Function '" ++ f ++ "' expects " ++ Decimal.ofNat expected ++ " arguments but was given "
    ++ Decimal.ofNat actual

def TypingError.message : TypingError → String
  | .typeMismatch expected actual =>
    "Couldn't match expected type '" ++ expected.text ++ "' with actual type '" ++ actual.text
      ++ "'"
  | .unboundName x => "Variable '" ++ x ++ "' is not in scope"
  | .undefinedFunction f => "Call to undefined function '" ++ f ++ "'"
  | .arityMismatch f expected actual => arityText f expected actual
  | .multipleDefinitions f => "Found multiple definitions of '" ++ f ++ "' while typechecking"

/-! ## Run-time errors -/

/-- What can go wrong with the standard streams. -/
inductive ChannelFault where
  /-- A line of the input is no text. -/
  | invalidText
  /-- The output takes no more bytes. -/
  | closed
  | flushFailed
  deriving DecidableEq, Repr

inductive RunError where
  | typeError (expected : Ty) (found : Value)
  | divisionByZero
  | moduloByZero
  | unboundName (x : Name)
  | undefinedFunction (f : Name)
  | arityMismatch (f : Name) (expected actual : Nat)
  | castFailure (v : Value) (target : Ty)
  | endOfInput
  | channel (fault : ChannelFault)
  deriving DecidableEq, Repr

def ChannelFault.message : ChannelFault → String
  | .invalidText => "stream did not contain valid UTF-8"
  | .closed => "closed"
  | .flushFailed => "flush failed"

namespace RunError

def message : RunError → String
  | .typeError expected found =>
    "Runtime type error: expected a value of type " ++ expected.text ++ " but found " ++ found.text
  | .divisionByZero => "Division by zero"
  | .moduloByZero => "Modulo by zero"
  | .unboundName x => Env.unboundText x
  | .undefinedFunction f => "Function not defined: " ++ f
  | .arityMismatch f expected actual => arityText f expected actual
  | .castFailure v target => "Invalid cast of " ++ v.text ++ " to " ++ target.text
  | .endOfInput => "Reached end of input while waiting for a line"
  | .channel fault => "I/O error on standard streams: " ++ fault.message

def isRecoverable : RunError → Bool
  | .castFailure _ _ => true
  | _ => false

end RunError

end ExprLang
