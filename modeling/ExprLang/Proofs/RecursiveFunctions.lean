import Mathlib.Algebra.Group.Int.Even
import Mathlib.Data.Nat.Fib.Basic
import ExprLang.Proofs.CanonicalTexts
import ExprLang.Proofs.Division
import ExprLang.Proofs.SummedLines

/-!
# Recursive functions

The demos `fib` and `parity` read a number and call a function with it that calls itself, twice or by
way of another one.  Both functions are defined for every number.  Of a negative number `fib` is the
number itself, and the countdown of `parity` goes down to the lowest number, on to the highest one and
from there to zero.

* `Console.calls` — the functions that were called and with what.
* `Demo.fibText` — the text that `fib` prints.
* `Demo.stepsDown`, `Demo.countdown` — how far it is to zero, and the calls on the way.

Principal results: `Demo.fib_stops`, `Demo.fib_goes_on`, `Demo.parity_stops`, `Demo.parity_goes_on` —
one call; `Demo.evaluates_fib`, `Demo.on_parity` — all calls; `Demo.endsIn_fib_main` — the demo `fib` on
any output; `Demo.recursive_demos_compute`.
-/

set_option autoImplicit false

namespace ExprLang

/-! ## Calls -/

def Event.call? : Event → Option (Name × List Value)
  | .calling f args => some (f, args)
  | _ => none

namespace Console

/-- The functions that were called, each with its arguments, in order. -/
def calls (c : Console) : List (Name × List Value) := c.events.reverse.filterMap Event.call?

theorem calls_record (c : Console) (e : Event) :
    (c.record e).calls = c.calls ++ e.call?.toList := by
  simp only [calls, record, List.reverse_cons, List.filterMap_append, List.filterMap_cons]
  cases e.call? <;> rfl

theorem calls_readLine (c : Console) : c.readLine.2.calls = c.calls := by
  rw [readLine, calls_record]
  exact List.append_nil _

end Console

namespace Demo

open ExprLang.Expr (int string)

variable {c : Console} {n : Int32} {line : List UInt8} {later : List (List UInt8)}

/-! ## Numbers -/

/-- What the bodies of the functions see. -/
def numberScope (n : Int32) : Env Value := Env.empty.bind "n" (.int n)

theorem evaluates_number (table : FunctionTable) (n : Int32) :
    Evaluates table (numberScope n) (.var "n") (.int n) :=
  .var rfl

theorem ofInt_add_sub (k j : Nat) :
    Int32.ofInt (k + j : Nat) - Int32.ofInt j = Int32.ofInt k := by
  rw [← Int32.ofInt_sub, Nat.cast_add, add_sub_cancel_right]

/-- A number is read from a line of its own. -/
theorem on_eval_readInt (table : FunctionTable) (env : Env Value) (budget : Nat)
    (hsplit : Line.split c.unread = line :: later) (hline : Line.Holds line n) :
    ∃ d, (eval table (budget + 2) env readInt).on c = some (.ok (.int n), d) ∧
      c.readLine.2.Alike d ∧ d.unread = later.flatten ∧ d.calls = c.calls := by
  obtain ⟨s, hs, -, hcast⟩ := hline
  obtain ⟨hnext, rfl⟩ := Console.nextLine_of_line hsplit hs
  refine ⟨c.readLine.2.record (.casting (.string s) .int), ?_, Console.alike_record _ rfl,
    (Line.flatten_split _).symm, ?_⟩
  · rw [readInt, eval, Run.run_bind, on_eval_input, hnext]
    simp only [Except.map, Run.run_bind, Run.run_record, Run.run_ofExcept, hcast]
  · rw [Console.calls_record, Console.calls_readLine]
    exact List.append_nil _

/-! ## Fibonacci numbers -/

section Fibonacci

variable {i j m : Int32} {v : Value}

theorem getElem?_fib_table : fib.table["fib"]? = some fibFunction := by
  rw [Program.table, FunctionTable.getElem?_ofDefinitions]
  rfl

theorem evaluates_fib_call {env : Env Value} {arg : Expr}
    (harg : Evaluates fib.table env arg (.int n))
    (h : Evaluates fib.table (numberScope n) fibFunction.body v) :
    Evaluates fib.table env (.call "fib" [arg]) v :=
  .call getElem?_fib_table rfl (.cons harg .nil) h

theorem evaluates_isSmall {b : Bool} (hb : decide (n < 2) = b) :
    Evaluates fib.table (numberScope n) (.binop .lt (.var "n") (int 2)) (.bool b) := by
  subst hb
  exact (evaluates_number _ n).binop (.lit _) rfl

/-- **Small numbers** are their own Fibonacci numbers, negative ones too. -/
theorem fib_stops (hn : n < 2) : Evaluates fib.table (numberScope n) fibFunction.body (.int n) :=
  .ite (evaluates_isSmall (decide_eq_true hn)) (evaluates_number _ n)

/-- **Of any other number** the function adds those of the two numbers before it. -/
theorem fib_goes_on (hn : ¬ n < 2)
    (hone : Evaluates fib.table (numberScope (n - 1)) fibFunction.body (.int i))
    (htwo : Evaluates fib.table (numberScope (n - 2)) fibFunction.body (.int j)) :
    Evaluates fib.table (numberScope n) fibFunction.body (.int (i + j)) := by
  have hless : ∀ k : Int32,
      Evaluates fib.table (numberScope n) (.binop .sub (.var "n") (int k)) (.int (n - k)) :=
    fun k => (evaluates_number _ n).binop (.lit _) rfl
  refine .ite (evaluates_isSmall (decide_eq_false hn)) ?_
  exact (evaluates_fib_call (hless 1) hone).binop (evaluates_fib_call (hless 2) htwo) rfl

theorem lt_two_iff : n < 2 ↔ n.toInt < 2 := by
  rw [Int32.lt_iff_toInt_lt]
  rfl

theorem not_ofInt_lt_two {k : Nat} (hk : k + 2 < 2147483648) : ¬ Int32.ofInt (k + 2 : Nat) < 2 := by
  have hvalue : (Int32.ofInt (k + 2 : Nat)).toInt = (k + 2 : Nat) :=
    Int32.toInt_ofInt_of_le (by omega) (by omega)
  rw [lt_two_iff, hvalue]
  omega

/-- **The Fibonacci numbers are computed modulo 2 ^ 32.** -/
theorem evaluates_fib {k : Nat} (hk : k < 2147483648) :
    Evaluates fib.table (numberScope (Int32.ofInt k)) fibFunction.body
      (.int (Int32.ofInt (Nat.fib k))) := by
  -- the recursion of the function is that of the sequence, two numbers at a time
  induction k using Nat.twoStepInduction with
  | zero => exact fib_stops (by decide)
  | one => exact fib_stops (by decide)
  | more k ih ih' =>
    have hone : Int32.ofInt (k + 2 : Nat) - 1 = Int32.ofInt (k + 1 : Nat) := ofInt_add_sub (k + 1) 1
    have htwo : Int32.ofInt (k + 2 : Nat) - 2 = Int32.ofInt k := ofInt_add_sub k 2
    have hsum : Int32.ofInt (Nat.fib (k + 2)) =
        Int32.ofInt (Nat.fib (k + 1)) + Int32.ofInt (Nat.fib k) := by
      rw [Nat.fib_add_two, Nat.add_comm, Nat.cast_add, Int32.ofInt_add]
    rw [hsum]
    refine fib_goes_on (not_ofInt_lt_two hk) ?_ ?_
    · rw [hone]
      exact ih' (by omega)
    · rw [htwo]
      exact ih (by omega)

/-- The function has a value at every number. -/
theorem exists_evaluates_fib (n : Int32) : ∃ m : Int32,
    Evaluates fib.table (numberScope n) fibFunction.body (.int m) ∧ (n.toInt < 2 → m = n) ∧
      (2 ≤ n.toInt → m.toInt ≡ (Nat.fib n.toInt.toNat : Int) [ZMOD 4294967296]) := by
  by_cases hn : n.toInt < 2
  · exact ⟨n, fib_stops (lt_two_iff.mpr hn), fun _ => rfl, fun h => absurd hn (by omega)⟩
  · have hrange : n.toInt ≤ 2147483647 := n.toInt_le
    have hvalue := evaluates_fib (k := n.toInt.toNat) (by omega)
    rw [Int.toNat_of_nonneg (by omega), Int32.ofInt_toInt] at hvalue
    exact ⟨_, hvalue, fun h => absurd h hn, fun _ => modEq_toInt_iff.mpr rfl⟩

def fibText (n m : Int32) : String :=
  "fib(" ++ Decimal.ofInt n.toInt ++ ") = " ++ Decimal.ofInt m.toInt

theorem evaluates_fibText (hm : Evaluates fib.table (numberScope n) fibFunction.body (.int m)) :
    Evaluates fib.table (numberScope n)
      (.concat [string "fib(", decimal (.var "n"), string ") = ", decimal (.call "fib" [.var "n"])])
      (.string (fibText n m)) := by
  have hn : Evaluates fib.table (numberScope n) (decimal (.var "n"))
      (.string (Decimal.ofInt n.toInt)) := (evaluates_number _ n).cast rfl
  have hfib : Evaluates fib.table (numberScope n) (decimal (.call "fib" [.var "n"]))
      (.string (Decimal.ofInt m.toInt)) := (evaluates_fib_call (evaluates_number _ n) hm).cast rfl
  have htext : fibText n m =
      String.join ["fib(", Decimal.ofInt n.toInt, ") = ", Decimal.ofInt m.toInt] := by
    simp [fibText, String.join]
  rw [htext]
  exact .concat (.cons (.lit _) (.cons hn (.cons (.lit _) (.cons hfib .nil))))

/-- **The demo reads one line and writes one**, whether the output takes it or not. -/
theorem endsIn_fib_main (hsplit : Line.split c.unread = line :: later) (hline : Line.Holds line n)
    (hm : Evaluates fib.table (numberScope n) fibFunction.body (.int m)) :
    EndsIn fib.table .empty fib.main c
      ⟨(c.writeLine (fibText n m)).1.map fun _ => .unit, (c.writeLine (fibText n m)).2.output,
        later.flatten⟩ := by
  obtain ⟨d, hread, halike, hunread, -⟩ := on_eval_readInt fib.table .empty 0 hsplit hline
  obtain ⟨hverdict, hwritten⟩ := (Console.Step.writeLine (fibText n m)).alike halike
  have hprint := endsIn_print (evaluates_fibText hm) d
  rw [hverdict, hwritten.output, Console.output_writeLine, Console.output_readLine, hunread]
    at hprint
  rw [Console.output_writeLine]
  exact (endsIn_letIn hread).mpr hprint

end Fibonacci

/-! ## Countdowns -/

section Parity

/-- Of the two functions, the one that answers `base` at zero. -/
def parityName : Bool → Name
  | true => "even"
  | false => "odd"

def parityDefinition (base : Bool) : Definition :=
  parityFunction (parityName base) base (parityName !base)

/-- A call of that function with a number, which is brought into the range. -/
def parityCall (base : Bool) (k : Nat) : Name × List Value :=
  (parityName base, [.int (Int32.ofInt k)])

/-- The calls that lead from a number to zero.  Each is of the other function than the one before. -/
def countdown : Bool → Nat → List (Name × List Value)
  | base, 0 => [parityCall base 0]
  | base, k + 1 => parityCall base (k + 1) :: countdown (!base) k

theorem getElem?_parity_table (base : Bool) :
    parity.table[parityName base]? = some (parityDefinition base) := by
  rw [Program.table, FunctionTable.getElem?_ofDefinitions]
  cases base <;> rfl

/-! ### Calls -/

/-- **At zero** the function has its answer. -/
theorem parity_stops (budget : Nat) (base : Bool) (c : Console) :
    (eval parity.table (budget + 3) (numberScope 0) (parityDefinition base).body).on c =
      some (.ok (.bool base), c.record (.applying .eq (.int 0) (.int 0))) := rfl

/-- **At any other number** the other function is called with the number before it. -/
theorem parity_goes_on (budget : Nat) (base : Bool) (hn : n ≠ 0) (c : Console) :
    ∃ c', c.Alike c' ∧ c'.calls = c.calls ∧
      (eval parity.table (budget + 4) (numberScope n) (parityDefinition base).body).on c =
        (eval parity.table (budget + 2) (numberScope (n - 1)) (parityDefinition !base).body).on
          (c'.record (.calling (parityName !base) [.int (n - 1)])) := by
  have hne : BinOp.apply .eq (.int n) (.int 0) = .ok (.bool false) := by
    simp [BinOp.apply, hn]
  have htest : (eval parity.table (budget + 3) (numberScope n)
      (.binop .eq (.var "n") (int 0))).on c =
      some (.ok (.bool false), c.record (.applying .eq (.int n) (.int 0))) := by
    rw [on_eval_binop .eq rfl rfl, hne]
  have hless : ∀ c : Console, (eval parity.table (budget + 2) (numberScope n)
      (.binop .sub (.var "n") (int 1))).on c =
      some (.ok (.int (n - 1)), c.record (.applying .sub (.int n) (.int 1))) :=
    fun c => on_eval_binop .sub (v := .int n) (w := .int 1) rfl rfl
  refine ⟨(c.record (.applying .eq (.int n) (.int 0))).record (.applying .sub (.int n) (.int 1)),
    (c.alike_record rfl).trans (Console.alike_record _ rfl), ?_, ?_⟩
  · rw [Console.calls_record, Console.calls_record]
    simp only [Event.call?, Option.toList_none, List.append_nil]
  · rw [parityDefinition, parityFunction, eval, Run.run_bind, htest]
    exact on_eval_call (getElem?_parity_table !base) rfl (hless _)

theorem ofInt_ne_zero {k : Nat} (hk : k + 1 < 4294967296) : Int32.ofInt (k + 1 : Nat) ≠ 0 := by
  intro hzero
  have hmod : (0 : Int32).toInt ≡ (k + 1 : Nat) [ZMOD 4294967296] := modEq_toInt_iff.mpr hzero.symm
  rw [Int32.toInt_zero, Int.ModEq] at hmod
  omega

/-- **All calls lead to zero**, and the answer there is passed on. -/
theorem on_parity {k : Nat} (hk : k < 4294967296) (base : Bool) (c : Console) :
    ∃ d, (eval parity.table (2 * k + 4) (numberScope (Int32.ofInt k))
        (parityDefinition base).body).on
          (c.record (.calling (parityName base) [.int (Int32.ofInt k)])) =
        some (.ok (.bool (if Even k then base else !base)), d) ∧
      c.Alike d ∧ d.calls = c.calls ++ countdown base k := by
  -- the two functions take turns, each on the console that the other one left
  induction k generalizing base c with
  | zero =>
    refine ⟨_, parity_stops 1 base _, ?_, ?_⟩
    · exact (c.alike_record rfl).trans (Console.alike_record _ rfl)
    · rw [Console.calls_record, Console.calls_record]
      exact List.append_nil _
  | succ k ih =>
    have hbefore : Int32.ofInt (k + 1 : Nat) - 1 = Int32.ofInt k := ofInt_add_sub k 1
    have hanswer : (if Even (k + 1) then base else !base) = if Even k then !base else !!base := by
      rw [Bool.not_not]
      by_cases heven : Even k <;> simp [Nat.even_add_one, heven]
    obtain ⟨c', halike, hcalls, hstep⟩ := parity_goes_on (2 * k + 2) base (ofInt_ne_zero hk)
      (c.record (.calling (parityName base) [.int (Int32.ofInt (k + 1 : Nat))]))
    obtain ⟨d, hrun, halike', hcalls'⟩ := ih (by omega) (!base) c'
    refine ⟨d, ?_, ((c.alike_record rfl).trans halike).trans halike', ?_⟩
    · rw [hanswer, ← hrun, ← hbefore]
      exact hstep
    · rw [hcalls', hcalls, Console.calls_record, countdown, List.append_assoc]
      rfl

/-! ### Steps down to zero -/

/-- How many steps of one lead down from the number to zero, where below the lowest number there is the
highest one. -/
def stepsDown (n : Int32) : Nat := (n.toInt % 4294967296).toNat

theorem stepsDown_lt (n : Int32) : stepsDown n < 4294967296 := by
  rw [stepsDown]
  omega

theorem ofInt_stepsDown (n : Int32) : Int32.ofInt (stepsDown n) = n := by
  have hmod : n.toInt ≡ (stepsDown n : Int) [ZMOD 4294967296] := by
    rw [Int.ModEq, stepsDown]
    omega
  exact (modEq_toInt_iff.mp hmod).symm

theorem even_stepsDown_iff (n : Int32) : Even (stepsDown n) ↔ Even n.toInt := by
  rw [Nat.even_iff, Int.even_iff, stepsDown]
  omega

theorem le_stepsDown_of_neg (hn : n.toInt < 0) : 2147483648 ≤ stepsDown n := by
  have hrange : -2147483648 ≤ n.toInt := n.minValue_le_toInt
  rw [stepsDown]
  omega

theorem countdown_suffix (base : Bool) {j k : Nat} (h : j ≤ k) :
    ∃ base', countdown base' j <:+ countdown base k := by
  induction k generalizing base with
  | zero =>
    obtain rfl := Nat.le_zero.mp h
    exact ⟨base, List.suffix_refl _⟩
  | succ k ih =>
    rcases Nat.lt_or_eq_of_le h with hlt | rfl
    · obtain ⟨base', hsuffix⟩ := ih (!base) (Nat.le_of_lt_succ hlt)
      exact ⟨base', hsuffix.trans (List.suffix_cons _ _)⟩
    · exact ⟨base, List.suffix_refl _⟩

/-- A countdown from far enough goes from the lowest number on to the highest one. -/
theorem countdown_wraps (base : Bool) {k : Nat} (hk : 2147483648 ≤ k) : ∃ f g : Name,
    [(f, [.int Int32.minValue]), (g, [.int Int32.maxValue])] <:+: countdown base k := by
  obtain ⟨base', hsuffix⟩ := countdown_suffix base hk
  have hstart : countdown base' (2147483646 + 2) = parityCall base' (2147483646 + 2) ::
      parityCall (!base') (2147483646 + 1) :: countdown (!!base') 2147483646 := rfl
  have hprefix : [(parityName base', [.int Int32.minValue]),
      (parityName !base', [.int Int32.maxValue])] <+: countdown base' (2147483646 + 2) := by
    rw [hstart]
    exact List.prefix_append [_, _] _
  exact ⟨_, _, hprefix.isInfix.trans hsuffix.isInfix⟩

/-- **The demo reads one line and writes nothing.** -/
theorem on_parity_run (hsplit : Line.split c.unread = line :: later) (hline : Line.Holds line n) :
    ∃ d, (parity.run (2 * stepsDown n + 6)).on c =
        some (.ok (.string (if Even n.toInt then "true" else "false")), d) ∧
      d.output = c.output ∧ d.unread = later.flatten ∧
      d.calls = c.calls ++ countdown true (stepsDown n) := by
  obtain ⟨d, hread, halike, hunread, hcalls⟩ :=
    on_eval_readInt parity.table .empty (2 * stepsDown n + 2) hsplit hline
  obtain ⟨e, hrun, halike', hcalls'⟩ := on_parity (stepsDown_lt n) true d
  rw [ofInt_stepsDown] at hrun
  have hcall : (eval parity.table (2 * stepsDown n + 5) .empty (.call "even" [readInt])).on c =
      some (.ok (.bool (if Even (stepsDown n) then true else !true)), e) :=
    (on_eval_call (getElem?_parity_table true) rfl hread).trans hrun
  have hanswer : cast (.bool (if Even (stepsDown n) then true else !true)) .string =
      .ok (.string (if Even n.toInt then "true" else "false")) := by
    by_cases hn : Even n.toInt
    · rw [if_pos hn, if_pos ((even_stepsDown_iff n).mpr hn)]
      rfl
    · rw [if_neg hn, if_neg (mt (even_stepsDown_iff n).mp hn)]
      rfl
  refine ⟨e.record (.casting (.bool (if Even (stepsDown n) then true else !true)) .string),
    ?_, ?_, halike'.unread.trans hunread, ?_⟩
  · show (eval parity.table (2 * stepsDown n + 6) .empty
      (.cast .string (.call "even" [readInt]))).on c = _
    rw [eval, Run.run_bind, hcall]
    simp only [Run.run_bind, Run.run_record, Run.run_ofExcept, hanswer]
  · rw [Console.output_record, halike'.output, halike.output, Console.output_readLine]
    exact List.append_nil _
  · rw [Console.calls_record, hcalls', hcalls]
    exact List.append_nil _

end Parity

/-! ## Main theorem -/

/-- **The recursive demos compute their functions at every number.**  With a number on the first line of
its input, `fib` prints the canonical texts of the number and of its Fibonacci number, which is the
number itself below two and the 32-bit integer congruent to the one of the sequence from there on.
`parity` writes nothing and tells whether the number is even; it calls `even` and `odd` in turn with all
the numbers down to zero, from a negative one by way of the lowest number and the highest one.  Either
leaves the other lines. -/
theorem recursive_demos_compute {input : List UInt8} (hinput : Line.split input = line :: later)
    (hline : Line.Holds line n) :
    (∃ (m : Int32) (s t : String),
      (n.toInt < 2 → m = n) ∧
      (2 ≤ n.toInt → m.toInt ≡ (Nat.fib n.toInt.toNat : Int) [ZMOD 4294967296]) ∧
      (Decimal.Canonical s ∧ Decimal.Spells s n.toInt) ∧
      (Decimal.Canonical t ∧ Decimal.Spells t m.toInt) ∧
      ∃ budget, ∀ b, budget ≤ b → (fib.run b).seen (.faultless input) =
        some ⟨.ok .unit, Line.ofText ("fib(" ++ s ++ ") = " ++ t), later.flatten⟩) ∧
    ∀ (room : Option Nat) (flushFails : Bool), ∃ budget, ∀ b, budget ≤ b →
      ∃ d, (parity.run b).on (.fresh input room flushFails) =
          some (.ok (.string (if Even n.toInt then "true" else "false")), d) ∧
        d.output = [] ∧ d.unread = later.flatten ∧
        d.calls = countdown true (stepsDown n) ∧
        (n.toInt < 0 → ∃ f g : Name,
          [(f, [.int Int32.minValue]), (g, [.int Int32.maxValue])] <:+: d.calls) := by
  constructor
  · obtain ⟨m, hvalue, hsmall, hlarge⟩ := exists_evaluates_fib n
    obtain ⟨budget, hbudget⟩ :=
      (endsIn_fib_main (c := .faultless input) hinput hline hvalue).eventually
    refine ⟨m, Decimal.ofInt n.toInt, Decimal.ofInt m.toInt, hsmall, hlarge,
      ⟨Decimal.canonical_ofInt _, .of_ofInt _⟩, ⟨Decimal.canonical_ofInt _, .of_ofInt _⟩,
      budget, fun b hb => ?_⟩
    have hend := hbudget b hb
    rw [Console.writeLine_faultless ⟨rfl, rfl⟩, Console.output_record] at hend
    exact hend
  · intro room flushFails
    obtain ⟨d, hrun, houtput, hunread, hcalls⟩ :=
      on_parity_run (c := .fresh input room flushFails) hinput hline
    refine ⟨2 * stepsDown n + 6, fun b hb => ⟨d, ?_, houtput, hunread, hcalls, fun hn => ?_⟩⟩
    · exact eval_mono parity.table hb .empty parity.main _ _ hrun
    · rw [hcalls]
      exact countdown_wraps true (le_stepsDown_of_neg hn)

/-- The Fibonacci number has left the range twice; a line is left. -/
def largeInput : List UInt8 := Utf8.encode ("50" ++ "\n") ++ Utf8.encode "x"

/-- A negative number with zeros in front. -/
def negativeInput : List UInt8 := Utf8.encode ("-007" ++ "\r\n") ++ Utf8.encode "x"

theorem recursive_demos_compute_wrapping :
    (∃ budget, ∀ b, budget ≤ b → (fib.run b).seen (.faultless largeInput) =
      some ⟨.ok .unit, Line.ofText "fib(50) = -298632863", Utf8.encode "x"⟩) ∧
    (∃ budget, ∀ b, budget ≤ b → (fib.run b).seen (.faultless negativeInput) =
      some ⟨.ok .unit, Line.ofText "fib(-7) = -7", Utf8.encode "x"⟩) ∧
    ∃ budget, ∀ b, budget ≤ b → ∃ d,
      (parity.run b).on (.fresh negativeInput (some 0) true) =
        some (.ok (.string "false"), d) ∧
      d.output = [] ∧ d.unread = Utf8.encode "x" ∧
      d.calls = countdown true 4294967289 ∧
      ∃ f g : Name, [(f, [.int Int32.minValue]), (g, [.int Int32.maxValue])] <:+: d.calls := by
  have hlargeLines : Line.split largeInput =
      [Utf8.encode ("50" ++ "\n"), Utf8.encode "x"] := rfl
  have hnegativeLines : Line.split negativeInput =
      [Utf8.encode ("-007" ++ "\r\n"), Utf8.encode "x"] := rfl
  have hlarge : Line.Holds (Utf8.encode ("50" ++ "\n")) 50 :=
    ⟨_, .newline "50" (by decide), by decide, rfl⟩
  have hnegative : Line.Holds (Utf8.encode ("-007" ++ "\r\n")) (-7) :=
    ⟨_, .carriageReturn "-007", by decide, rfl⟩
  obtain ⟨⟨m, s, t, -, hm, ⟨hs, hn⟩, ⟨ht, htm⟩, hfib⟩, -⟩ :=
    recursive_demos_compute hlargeLines hlarge
  obtain ⟨⟨m', s', t', hm', -, ⟨hs', hn'⟩, ⟨ht', htm'⟩, hfib'⟩, hparity⟩ :=
    recursive_demos_compute hnegativeLines hnegative
  obtain rfl : m = -298632863 := modEq_toInt_iff.mp (hm (by decide))
  obtain rfl : m' = -7 := hm' (by decide)
  obtain rfl := hs.eq_ofInt hn
  obtain rfl := ht.eq_ofInt htm
  obtain rfl := hs'.eq_ofInt hn'
  obtain rfl := ht'.eq_ofInt htm'
  obtain ⟨budget, hrun⟩ := hparity (some 0) true
  refine ⟨hfib, hfib', budget, fun b hb => ?_⟩
  obtain ⟨d, hd, houtput, hunread, hcalls, hwraps⟩ := hrun b hb
  exact ⟨d, hd, houtput, hunread, hcalls, hwraps (by decide)⟩

end Demo

end ExprLang
