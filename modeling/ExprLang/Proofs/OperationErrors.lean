import ExprLang.Eval.Apply
import ExprLang.Eval.Cast
import ExprLang.Eval.Console
import ExprLang.Proofs.Conduct

/-!
# Errors of operations

What each operation on values and streams can fail with, whatever it is given.

* `Fails` — a result that is a value or an error of a given kind.
* `Tests` — an operation that refuses the values of all types but one.
* `BinOp.Errors` — the errors of an operator.

Principal results: `apply_fails`, `cast_fails`, `readLine_fails`, `writeLine_fails` — operators, casts
and streams have no other errors than these.
-/

set_option autoImplicit false

namespace ExprLang

variable {α : Type}

/-- If there is no value, the error satisfies `fault`. -/
abbrev Fails (fault : RunError → Prop) (r : Except RunError α) : Prop :=
  Ends (fun _ => True) fault r

theorem Fails.weaken {fault fault' : RunError → Prop} {r : Except RunError α} (h : Fails fault r)
    (hfault : ∀ e, fault e → fault' e) : Fails fault' r :=
  h.mono (fun _ _ => trivial) hfault

/-! ## Kinds of values -/

/-- Only a value of another type than the expected one is refused, and the error shows it. -/
def Tests (expected : Ty) (v : Value) (r : Except RunError α) : Prop :=
  Fails (fun e => v.type ≠ expected ∧ e = .typeError expected v) r

theorem Tests.fails {expected : Ty} {v : Value} {r : Except RunError α} {fault : RunError → Prop}
    (h : Tests expected v r) (hfault : v.type ≠ expected → fault (.typeError expected v)) :
    Fails fault r := by
  refine Fails.weaken h ?_
  rintro _ ⟨hne, rfl⟩
  exact hfault hne

namespace Value

theorem expectInt_tests (v : Value) : Tests .int v v.expectInt := by
  cases v <;> simp [Tests, Ends, expectInt, type]

theorem expectBool_tests (v : Value) : Tests .bool v v.expectBool := by
  cases v <;> simp [Tests, Ends, expectBool, type]

theorem expectString_tests (v : Value) : Tests .string v v.expectString := by
  cases v <;> simp [Tests, Ends, expectString, type]

end Value

/-! ## Operators -/

namespace BinOp

/-- An operand of another type than the expected one, or a divisor that is zero. -/
inductive Errors : BinOp → RunError → Prop
  | operand {op : BinOp} {expected : Ty} {found : Value} :
      found.type ≠ expected → Errors op (.typeError expected found)
  | divisor : Errors .div .divisionByZero
  | modulus : Errors .mod .moduloByZero

theorem unlessZero_fails {fault : RunError → Prop} {e : RunError} (he : fault e)
    (divisor n : Int32) : Fails fault (unlessZero divisor e n) := by
  unfold unlessZero
  split
  · exact he
  · trivial

theorem onInts_fails {op : BinOp} (left right : Value) {f : Int32 → Int32 → Except RunError Value}
    (hf : ∀ a b, Fails op.Errors (f a b)) : Fails op.Errors (onInts left right f) := by
  unfold onInts
  refine (left.expectInt_tests.fails .operand).bind fun a _ => ?_
  exact (right.expectInt_tests.fails .operand).bind fun b _ => hf a b

theorem onBools_fails {op : BinOp} (left right : Value) (f : Bool → Bool → Bool) :
    Fails op.Errors (onBools left right f) := by
  unfold onBools
  refine (left.expectBool_tests.fails .operand).bind fun a _ => ?_
  exact (right.expectBool_tests.fails .operand).bind fun b _ => trivial

theorem apply_fails (op : BinOp) (left right : Value) :
    Fails op.Errors (op.apply left right) := by
  cases op with
  | eq => trivial
  | div => exact onInts_fails left right fun a b => unlessZero_fails .divisor b (a / b)
  | mod => exact onInts_fails left right fun a b => unlessZero_fails .modulus b (a % b)
  | and | or => exact onBools_fails left right _
  | _ => exact onInts_fails left right fun a b => trivial

end BinOp

/-! ## Casts and streams -/

theorem cast_fails (v : Value) (target : Ty) :
    Fails (fun e => cast? target v = none ∧ e = .castFailure v target) (cast v target) := by
  unfold cast
  split
  · trivial
  · rename_i h
    exact ⟨h, rfl⟩

theorem cast_eq_castFailure {v : Value} {target : Ty} (h : ∀ w, cast v target ≠ .ok w) :
    cast v target = .error (.castFailure v target) := by
  have hfails := cast_fails v target
  cases hcast : cast v target with
  | ok w => exact absurd hcast (h w)
  | error e =>
    rw [hcast] at hfails
    rw [hfails.2]

theorem Console.readLine_fails (c : Console) :
    Fails (fun e => e = .endOfInput ∨ e = .channel .invalidText) c.readLine.1 := by
  show Fails _ (nextLine c.unread)
  unfold nextLine
  split
  · exact .inl rfl
  · split
    · trivial
    · exact .inr rfl

theorem Console.writeLine_fails (c : Console) (s : String) :
    Fails (fun e => e = .channel .closed ∨ e = .channel .flushFailed) (c.writeLine s).1 := by
  unfold writeLine
  dsimp only
  split
  · exact .inl rfl
  · split
    · exact .inr rfl
    · trivial

end ExprLang
