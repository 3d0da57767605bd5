import ExprLang.CommandLine

/-!
# The program

Connects the command line to the standard streams.

A run is a function of its input, and lines that it has not asked for cannot influence it.  So the
command line is evaluated on the complete lines that have arrived; if it ends for want of input,
more is read, it is evaluated anew, and what it has written beyond the last time is shown.
-/

set_option autoImplicit false

namespace ExprLang.CommandLine

/-- The bytes up to and with the last newline. -/
def completeLines (bytes : List UInt8) : List UInt8 :=
  (bytes.reverse.dropWhile (· != Line.newline)).reverse

/-- Reads on for as long as the run wants more input than has arrived. -/
partial def serve (inv : Invocation) (shown : Nat) (arrived : List UInt8) (ended : Bool) :
    IO UInt32 := do
  let input := if ended then arrived else completeLines arrived
  match run ampleBudget { inv with input := input } with
  | none => return 1
  | some finish =>
    let stdout ← IO.getStdout
    stdout.write ⟨(finish.output.drop shown).toArray⟩
    stdout.flush
    if finish.inputEnded && !ended then
      let chunk ← (← IO.getStdin).read 65536
      serve inv finish.output.length (arrived ++ chunk.data.toList) chunk.isEmpty
    else
      (← IO.getStderr).putStr finish.errors
      return finish.status.toUInt32

end ExprLang.CommandLine

/-- The verbosity is chosen by the environment. -/
def main (args : List String) : IO UInt32 := do
  let chosen ← IO.getEnv "RUST_LOG"
  ExprLang.CommandLine.serve ⟨args, [], chosen.bind ExprLang.CommandLine.verbosity?⟩ 0 [] false
