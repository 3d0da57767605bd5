import ExprLang.Demo
import ExprLang.Eval.Eval
import ExprLang.Typing.Infer

/-!
# The command line

The first argument names a demo, which is checked and then run on the standard streams; further
arguments are not looked at.

* `run` — an invocation as a function: exit status, bytes written, text on the error stream.
* `usage` — what is written when no demo is named or the name is unknown.

| end | status | last line |
|---|---|---|
| a value | 0 | `> ` and the value, on the output |
| an error | 255 | `Cast Error: ` or `Runtime Error: ` and the message, on the error stream |
| no demo found | 1 | the usage text, on the output |
-/

set_option autoImplicit false

namespace ExprLang.CommandLine

structure Invocation where
  args : List String
  input : List UInt8
  /-- Log lines of this level and above are shown on the error stream. -/
  verbosity : Option Level

structure Finish where
  status : UInt8
  output : List UInt8
  errors : String
  /-- The run ended because the input did. -/
  inputEnded : Bool

/-- The two verbosities by name; any other text chooses none. -/
def verbosity? (text : String) : Option Level :=
  if text = "info" then some .info else if text = "debug" then some .debug else none

def lines (texts : List String) : String := String.join (texts.map (· ++ "\n"))

def usage : String :=
  lines ("Please provide the name of a program to run:" :: Demo.names.map ("  " ++ ·))

def shownLog (verbosity : Option Level) (log : List LogLine) : List String :=
  match verbosity with
  | some chosen => (log.filter fun line => chosen.admits line.level).map LogLine.text
  | none => []

def errorText (e : RunError) : String :=
  (if e.isRecoverable then "Cast Error: " else "Runtime Error: ") ++ e.message

/-- How a run that left `console` is reported, after the log lines `before` of the check. -/
def finish (verbosity : Option Level) (before : List LogLine) (result : Except RunError Value)
    (console : Console) : Finish :=
  let shown := shownLog verbosity (before ++ console.log)
  match result with
  | .ok v => ⟨0, console.output ++ Utf8.encode (lines ["> " ++ v.text]), lines shown, false⟩
  | .error e =>
    ⟨255, console.output, lines (shown ++ [errorText e]), decide (e = .endOfInput)⟩

def runProgram (budget : Nat) (name : String) (p : Program) (input : List UInt8)
    (verbosity : Option Level) : Option Finish :=
  let check := p.infer
  let notes := check.notes.map Note.log
  match check.verdict with
  | .error e =>
    some ⟨255, [], lines (shownLog verbosity notes ++ ["Typing Error: " ++ e.message]), false⟩
  | .ok t =>
    let before := notes ++ [⟨.info, "Program " ++ name ++ " has type " ++ t.text⟩]
    ((p.run budget).on (Console.faultless input)).map fun (result, console) =>
      finish verbosity before result console

def run (budget : Nat) (inv : Invocation) : Option Finish :=
  match inv.args with
  | [] => some ⟨1, Utf8.encode usage, "", false⟩
  | name :: _ =>
    match Demo.find? name with
    | some p => runProgram budget name p inv.input inv.verbosity
    | none =>
      some ⟨1, Utf8.encode usage, lines ["Unknown program '" ++ name ++ "'."], false⟩

end ExprLang.CommandLine
