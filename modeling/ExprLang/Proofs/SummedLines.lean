import Mathlib.Algebra.BigOperators.Group.List.Basic
import ExprLang.Demo
import ExprLang.Proofs.DecimalTexts
import ExprLang.Proofs.EvaluationRules
import ExprLang.Proofs.StepByStep
import ExprLang.Proofs.WrappingArithmetic

/-!
# Sums of lines

The demo `sum` is a function that reads a line, adds the number on it to its argument and calls itself
with the sum.  Whatever its input is, the sum is that of the numbers on the lines before the first one
that has no number, and this line decides how the run ends.

* `Line.Holds` — a line has a number on it.
* `Demo.SumEnds` — how the run ends with the lines behind the numbers.

Principal results: `Demo.sum_goes_on`, `Demo.sum_stops` — what one line does; `Demo.endsIn_sum` — what
all lines do; `Demo.exists_numbers`, `Demo.sum_finishes` — every input is of this kind;
`Demo.sum_adds_lines`.
-/

set_option autoImplicit false

namespace ExprLang

/-- The text of the line is not empty, and it can be cast to this number. -/
def Line.Holds (line : List UInt8) (n : Int32) : Prop :=
  ∃ s, Answers (some line) (.ok s) ∧ s ≠ "" ∧ cast (.string s) .int = .ok (.int n)

namespace Demo

/-- The line behind the numbers decides the result, and the lines behind that one are left. -/
inductive SumEnds (total : Int32) :
    List (List UInt8) → Except RunError Value → List (List UInt8) → Prop
  | emptyLine {line : List UInt8} (later : List (List UInt8)) :
      Line.Answers (some line) (.ok "") → SumEnds total (line :: later) (.ok (.int total)) later
  | noNumber {line : List UInt8} {s : String} (later : List (List UInt8)) :
      Line.Answers (some line) (.ok s) → s ≠ "" →
      (∀ v, cast (.string s) .int ≠ .ok v) →
      SumEnds total (line :: later) (.error (.castFailure (.string s) .int)) later
  | noText {line : List UInt8} (later : List (List UInt8)) :
      Line.Answers (some line) (.error (.channel .invalidText)) →
      SumEnds total (line :: later) (.error (.channel .invalidText)) later
  | noLine : SumEnds total [] (.error .endOfInput) []

/-! ## One line -/

/-- What the body of the function sees: the sum so far. -/
def sumScope (total : Int32) : Env Value := Env.empty.bind "acc" (.int total)

/-- What it sees once a line is read. -/
def lineScope (total : Int32) (s : String) : Env Value := (sumScope total).bind "line" (.string s)

theorem getElem?_sum_table : sum.table["sum_from"]? = some sumFunction := by
  rw [Program.table, FunctionTable.getElem?_ofDefinitions]
  rfl

variable {c : Console} {total : Int32} {line : List UInt8} {others later : List (List UInt8)}
  {result : Except RunError Value}

/-- **A call** passes the sum so far to the body. -/
theorem endsIn_sum_call {env : Env Value} {arg : Expr} {ending : Ending}
    (harg : Evaluates sum.table env arg (.int total))
    (h : EndsIn sum.table (sumScope total) sumFunction.body c ending) :
    EndsIn sum.table env (.call "sum_from" [arg]) c ending :=
  endsIn_call getElem?_sum_table rfl (.cons harg .nil) h

section Text

variable (total : Int32) (s : String)

theorem evaluates_acc : Evaluates sum.table (lineScope total s) (.var "acc") (.int total) :=
  .var rfl

theorem evaluates_line : Evaluates sum.table (lineScope total s) (.var "line") (.string s) :=
  .var rfl

variable {total s}

theorem evaluates_isEmpty {b : Bool} (hb : decide (s = "") = b) :
    Evaluates sum.table (lineScope total s) (.binop .eq (.var "line") (.string "")) (.bool b) := by
  refine .binop (evaluates_line total s) (.lit _) ?_
  rw [BinOp.apply, ← hb]
  simp only [Value.string.injEq]

/-- The text of the line decides between the sum and the next call. -/
theorem endsIn_body {b : Bool} {ending : Ending} (hsplit : Line.split c.unread = line :: later)
    (hline : Line.Answers (some line) (.ok s)) (hb : decide (s = "") = b)
    (h : EndsIn sum.table (lineScope total s)
      (if b then .var "acc"
        else .call "sum_from" [.binop .add (.var "acc") (.cast .int (.var "line"))])
      c.readLine.2 ending) :
    EndsIn sum.table (sumScope total) sumFunction.body c ending := by
  have hread := on_eval_input sum.table 0 (sumScope total) c
  rw [(Console.nextLine_of_line hsplit hline).1] at hread
  exact (endsIn_letIn hread).mpr (endsIn_ite (evaluates_isEmpty hb) h)

end Text

/-- **A line with a number** is added, and the function is called again. -/
theorem sum_goes_on {n : Int32} {ending : Ending} (hsplit : Line.split c.unread = line :: later)
    (hline : Line.Holds line n)
    (h : EndsIn sum.table (sumScope (total + n)) sumFunction.body c.readLine.2 ending) :
    EndsIn sum.table (sumScope total) sumFunction.body c ending := by
  obtain ⟨s, hs, hne, hcast⟩ := hline
  have hnumber := (evaluates_line total s).cast hcast
  refine endsIn_body hsplit hs (decide_eq_false hne) ?_
  exact endsIn_sum_call ((evaluates_acc total s).binop hnumber rfl) h

/-- Without a text nothing is bound. -/
theorem endsIn_body_of_error (total : Int32) {err : RunError}
    (hnext : Console.nextLine c.unread = .error err) :
    EndsIn sum.table (sumScope total) sumFunction.body c
      ⟨.error err, c.output, Line.rest c.unread⟩ := by
  have hread := endsIn_input sum.table (sumScope total) c
  rw [hnext] at hread
  exact endsIn_letIn_of_error hread

/-- **Any other line**, or none, ends the sum. -/
theorem sum_stops (hends : SumEnds total others result later)
    (hsplit : Line.split c.unread = others) :
    EndsIn sum.table (sumScope total) sumFunction.body c ⟨result, c.output, later.flatten⟩ := by
  cases hends with
  | emptyLine later hline =>
    obtain ⟨-, rfl⟩ := Console.nextLine_of_line hsplit hline
    have hsum := (evaluates_acc total "").endsIn c.readLine.2
    rw [Console.output_readLine] at hsum
    rw [Line.flatten_split]
    exact endsIn_body hsplit hline (decide_eq_true rfl) hsum
  | @noNumber _ s later hline hne hcast =>
    obtain ⟨-, rfl⟩ := Console.nextLine_of_line hsplit hline
    have hfailed := endsIn_cast .int (evaluates_line total s) c.readLine.2
    rw [Console.output_readLine, cast_eq_castFailure hcast] at hfailed
    rw [Line.flatten_split]
    refine endsIn_body hsplit hline (decide_eq_false hne) ?_
    exact endsIn_call_of_error getElem?_sum_table rfl
      (endsIn_binop_of_error (evaluates_acc total s) hfailed)
  | noText later hline =>
    obtain ⟨hnext, rfl⟩ := Console.nextLine_of_line hsplit hline
    rw [Line.flatten_split]
    exact endsIn_body_of_error total hnext
  | noLine =>
    have hunread : c.unread = [] := by rw [← Line.flatten_split c.unread, hsplit, List.flatten_nil]
    have hnext : Console.nextLine c.unread = .error .endOfInput := by rw [hunread]; rfl
    have hnone := endsIn_body_of_error total hnext
    rwa [hunread] at hnone

/-! ## All lines -/

theorem toInt_add_modEq (a b : Int32) : (a + b).toInt ≡ a.toInt + b.toInt [ZMOD 4294967296] := by
  rw [modEq_toInt_iff, Int32.ofInt_add, Int32.ofInt_toInt, Int32.ofInt_toInt]

/-- **All numbers are added** before a line ends the sum. -/
theorem endsIn_sum {numbers : List (List UInt8)} {ns : List Int32} {m : Int32}
    (hnumbers : List.Forall₂ Line.Holds numbers ns)
    (hm : m.toInt ≡ total.toInt + (ns.map Int32.toInt).sum [ZMOD 4294967296])
    (hends : SumEnds m others result later) (hsplit : Line.split c.unread = numbers ++ others) :
    EndsIn sum.table (sumScope total) sumFunction.body c ⟨result, c.output, later.flatten⟩ := by
  -- the sum so far changes from call to call, and what is left of the total with it
  induction hnumbers generalizing total c with
  | nil =>
    rw [List.map_nil, List.sum_nil, add_zero, modEq_toInt_iff, Int32.ofInt_toInt] at hm
    subst hm
    exact sum_stops hends hsplit
  | @cons line n _ ns hline _ ih =>
    have ⟨_, hs, _⟩ := hline
    obtain ⟨-, hrest⟩ := Console.nextLine_of_line hsplit hs
    refine sum_goes_on hsplit hline ?_
    have hmore : m.toInt ≡ (total + n).toInt + (ns.map Int32.toInt).sum [ZMOD 4294967296] := by
      rw [List.map_cons, List.sum_cons, ← add_assoc] at hm
      exact hm.trans ((toInt_add_modEq total n).symm.add_right _)
    have hnext := ih (c := c.readLine.2) hmore hrest
    rwa [Console.output_readLine] at hnext

/-- Every input has lines with numbers first, if any, and then something that ends the sum. -/
theorem exists_numbers (lines : List (List UInt8)) : ∃ numbers ns others,
    lines = numbers ++ others ∧ List.Forall₂ Line.Holds numbers ns ∧
      ∀ m, ∃ result later, SumEnds m others result later := by
  induction lines with
  | nil => exact ⟨[], [], [], rfl, .nil, fun m => ⟨_, _, .noLine⟩⟩
  | cons line lines ih =>
    cases hdecode : Utf8.decode? line with
    | none =>
      have hline : Line.Answers (some line) (.error (.channel .invalidText)) := by
        refine .invalid line fun s hs => ?_
        rw [hs, Utf8.decode?_encode] at hdecode
        cases hdecode
      exact ⟨[], [], line :: lines, rfl, .nil, fun m => ⟨_, _, .noText lines hline⟩⟩
    | some text =>
      have hline := Line.chomp_answers text
      rw [← Utf8.decode?_eq_some_iff.mp hdecode] at hline
      by_cases hempty : Line.chomp text = ""
      · rw [hempty] at hline
        exact ⟨[], [], line :: lines, rfl, .nil, fun m => ⟨_, _, .emptyLine lines hline⟩⟩
      by_cases hcast : ∃ n, cast (.string (Line.chomp text)) .int = .ok (.int n)
      · obtain ⟨n, hn⟩ := hcast
        obtain ⟨numbers, ns, others, rfl, hnumbers, hends⟩ := ih
        exact ⟨line :: numbers, n :: ns, others, rfl, .cons ⟨_, hline, hempty, hn⟩ hnumbers, hends⟩
      · refine ⟨[], [], line :: lines, rfl, .nil, fun m => ⟨_, _, .noNumber lines hline hempty ?_⟩⟩
        intro v hv
        obtain ⟨n, rfl, -⟩ := cast_text_to_int_eq_ok_iff.mp hv
        exact hcast ⟨n, hv⟩

/-- The demo is the first call. -/
theorem seen_sum_run {m : Int32} {numbers : List (List UInt8)} {ns : List Int32}
    (hnumbers : List.Forall₂ Line.Holds numbers ns)
    (hm : m.toInt ≡ (ns.map Int32.toInt).sum [ZMOD 4294967296])
    (hends : SumEnds m others result later) (hsplit : Line.split c.unread = numbers ++ others) :
    ∃ budget, ∀ n, budget ≤ n →
      (sum.run n).seen c = some ⟨result, c.output, later.flatten⟩ := by
  have hzero : m.toInt ≡ (0 : Int32).toInt + (ns.map Int32.toInt).sum [ZMOD 4294967296] := by
    rwa [Int32.toInt_zero, zero_add]
  exact (endsIn_sum_call (.lit (.int 0)) (endsIn_sum hnumbers hzero hends hsplit)).eventually

/-- The demo does not run on for ever, whatever its input is. -/
theorem sum_finishes (c : Console) :
    ∃ budget ending, (sum.run budget).seen c = some ending := by
  obtain ⟨numbers, ns, others, hsplit, hnumbers, hends⟩ := exists_numbers (Line.split c.unread)
  obtain ⟨result, later, hends⟩ := hends (Int32.ofInt (ns.map Int32.toInt).sum)
  obtain ⟨budget, hbudget⟩ := seen_sum_run hnumbers (modEq_toInt_iff.mpr rfl) hends hsplit
  exact ⟨budget, _, hbudget budget (Nat.le_refl budget)⟩

/-! ## Main theorem -/

/-- **The demo adds the numbers on the lines of its input.**  If there are any number of lines with
numbers and then an empty line, the result is the 32-bit integer congruent to their sum; behind the
numbers any other line, or none, is an error.  Nothing is written, and what follows the last line that
was looked at is left. -/
theorem sum_adds_lines {input : List UInt8} {numbers others later : List (List UInt8)}
    {ns : List Int32} {m : Int32} {result : Except RunError Value}
    (hinput : Line.split input = numbers ++ others) (hnumbers : List.Forall₂ Line.Holds numbers ns)
    (hm : m.toInt ≡ (ns.map Int32.toInt).sum [ZMOD 4294967296])
    (hends : SumEnds m others result later) (room : Option Nat) (flushFails : Bool) :
    ∃ budget, ∀ n, budget ≤ n →
      (sum.run n).seen (.fresh input room flushFails) = some ⟨result, [], later.flatten⟩ :=
  seen_sum_run hnumbers hm hends hinput

/-- The sum leaves the range; a line is left. -/
def overflowingInput : List UInt8 :=
  Utf8.encode ("2147483647" ++ "\r\n") ++ Utf8.encode ("1" ++ "\n") ++ Utf8.encode ("" ++ "\n") ++
    Utf8.encode "x"

theorem sum_adds_lines_overflowing :
    ∃ budget, ∀ n, budget ≤ n → (sum.run n).seen (.fresh overflowingInput none false) =
      some ⟨.ok (.int (-2147483648)), [], Utf8.encode "x"⟩ := by
  have hlines : Line.split overflowingInput =
      [Utf8.encode ("2147483647" ++ "\r\n"), Utf8.encode ("1" ++ "\n")] ++
        [Utf8.encode ("" ++ "\n"), Utf8.encode "x"] := rfl
  have hfirst : Line.Holds (Utf8.encode ("2147483647" ++ "\r\n")) 2147483647 :=
    ⟨_, .carriageReturn "2147483647", by decide, rfl⟩
  have hsecond : Line.Holds (Utf8.encode ("1" ++ "\n")) 1 :=
    ⟨_, .newline "1" (by decide), by decide, rfl⟩
  exact sum_adds_lines hlines (.cons hfirst (.cons hsecond .nil)) (by decide)
    (.emptyLine _ (.newline "" (by decide))) none false

end Demo

end ExprLang
