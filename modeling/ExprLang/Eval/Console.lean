import ExprLang.BinOp
import ExprLang.Report
import ExprLang.Text.Line

/-!
# The console of a run

A run reads lines from an input and writes lines to an output that may refuse bytes or fail to
flush.  The console keeps what is left of the input, what the output still takes, and the history
of the run.

* `Event` — what happens in a run: calls, operators, casts, lines read and bytes written.
* `Console` — the streams and the events so far.
* `Console.output`, `Console.log` — two views of the events.
* `Console.readLine`, `Console.writeLine` — the only uses of the streams.
-/

set_option autoImplicit false

namespace ExprLang

inductive Event where
  | calling (f : Name) (args : List Value)
  | applying (op : BinOp) (left right : Value)
  | casting (v : Value) (target : Ty)
  /-- The input was asked for a line and gave this answer. -/
  | reading (answer : Except RunError String)
  /-- The output took these bytes. -/
  | writing (bytes : List UInt8)

namespace Event

/-- A list of values, each with its kind, between brackets. -/
def argsText (args : List Value) : String :=
  "[" ++ String.intercalate ", " (args.map Value.taggedText) ++ "]"

/-- The log line of an event; lines that could not be read and lines written have none. -/
def log? : Event → Option LogLine
  | .calling f args => some ⟨.info, "Calling " ++ f ++ " with " ++ argsText args⟩
  | .applying op left right =>
    some ⟨.debug, "Applying " ++ op.symbol ++ " to " ++ left.text ++ " and " ++ right.text⟩
  | .casting v target => some ⟨.debug, "Casting " ++ v.text ++ " to " ++ target.text⟩
  | .reading (.ok line) => some ⟨.debug, "Read input line " ++ Quoted.quote line⟩
  | .reading (.error _) => none
  | .writing _ => none

def written : Event → List UInt8
  | .writing bytes => bytes
  | _ => []

end Event

structure Console where
  /-- The input not consumed yet. -/
  unread : List UInt8
  /-- How many bytes the output still takes, if there is a limit. -/
  room : Option Nat
  flushFails : Bool
  /-- Latest first. -/
  events : List Event

namespace Console

/-- A console on which nothing has happened yet. -/
def fresh (input : List UInt8) (room : Option Nat) (flushFails : Bool) : Console :=
  ⟨input, room, flushFails, []⟩

/-- An output that never fails. -/
def faultless (input : List UInt8) : Console := fresh input none false

/-- The bytes written so far. -/
def output (c : Console) : List UInt8 := c.events.reverse.flatMap Event.written

/-- The log lines so far. -/
def log (c : Console) : List LogLine := c.events.reverse.filterMap Event.log?

def record (c : Console) (e : Event) : Console := { c with events := e :: c.events }

/-- The same streams with an empty history. -/
def forget (c : Console) : Console := { c with events := [] }

/-- What the input answers when it is asked for a line. -/
def nextLine (unread : List UInt8) : Except RunError String :=
  if unread = [] then .error .endOfInput
  else match Utf8.decode? (Line.first unread) with
    | some line => .ok (Line.chomp line)
    | none => .error (.channel .invalidText)

/-- A line is consumed whole, also one that is no text. -/
def readLine (c : Console) : Except RunError String × Console :=
  let answer := nextLine c.unread
  (answer, { c with unread := Line.rest c.unread }.record (.reading answer))

/-- As many of the bytes as the output takes. -/
def accepted (room : Option Nat) (bytes : List UInt8) : List UInt8 :=
  match room with
  | some n => bytes.take n
  | none => bytes

/-- Writes a text and a newline and flushes.  What the output takes stays written, whatever
fails. -/
def writeLine (c : Console) (s : String) : Except RunError Unit × Console :=
  let bytes := Utf8.encode s ++ [Line.newline]
  let taken := accepted c.room bytes
  let verdict :=
    if taken.length < bytes.length then .error (.channel .closed)
    else if c.flushFails then .error (.channel .flushFailed)
    else .ok ()
  (verdict, { c with room := c.room.map (· - taken.length) }.record (.writing taken))

end Console

end ExprLang
