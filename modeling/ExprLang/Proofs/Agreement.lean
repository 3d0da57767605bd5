import ExprLang.Proofs.Inference
import ExprLang.Proofs.OperationErrors

/-!
# Agreement of checks and operations

What a check says of types and what an operation does with values of these types.

* `RunError.isDynamic` — the errors that no check foresees.
* `EndsAt` — an operation gave a value of a type or failed with such an error.
* `TypingError.Predicts` — a typing error and the run-time error it stands for.
* `Agree` — a check and an operation succeed together or fail for the same reason, unless a
  dynamic error comes first.

Principal results: `Agree.bind` — agreement is kept by sequences; `apply_agree` — the operators
test their operands as the checker does; `apply_ends`, `cast_ends` — on values of the right types
operators and casts give a value of the type the checker says, or a dynamic error.
-/

set_option autoImplicit false

namespace ExprLang

/-- Errors that depend on values and streams, not on types or names. -/
def RunError.isDynamic : RunError → Bool
  | .divisionByZero | .moduloByZero | .castFailure _ _ | .endOfInput | .channel _ => true
  | .typeError _ _ | .unboundName _ | .undefinedFunction _ | .arityMismatch _ _ _ => false

/-- A value of the type, or a dynamic error. -/
abbrev EndsAt (t : Ty) : Except RunError Value → Prop := Ends (·.type = t) (·.isDynamic)

/-- The run-time error names the same expected type and a value of the actual one, or the same
variable. -/
def TypingError.Predicts : TypingError → RunError → Prop
  | .typeMismatch expected actual, .typeError expected' found =>
    expected' = expected ∧ found.type = actual
  | .unboundName x, .unboundName y => y = x
  | _, _ => False

theorem TypingError.predicts_typeMismatch {expected actual : Ty} {e : RunError} :
    (typeMismatch expected actual).Predicts e ↔
      ∃ found, e = .typeError expected found ∧ found.type = actual := by
  constructor
  · intro h
    cases e with
    | typeError expected' found =>
      obtain ⟨rfl, hfound⟩ := h
      exact ⟨found, rfl, hfound⟩
    | _ => exact h.elim
  · rintro ⟨found, rfl, hfound⟩
    exact ⟨rfl, hfound⟩

theorem TypingError.predicts_unboundName {x : Name} {e : RunError} :
    (unboundName x).Predicts e ↔ e = .unboundName x := by
  constructor
  · intro h
    cases e with
    | unboundName y => exact congrArg _ h
    | _ => exact h.elim
  · rintro rfl
    rfl

section Agree

variable {α β γ δ : Type}

/-- A verdict and a result: related if both succeed, for the same reason if both fail.  Only a
dynamic error may come where the verdict is favourable, or in place of the predicted one. -/
def Agree (R : α → β → Prop) : Except TypingError α → Except RunError β → Prop
  | .ok a, .ok b => R a b
  | .ok _, .error e => e.isDynamic
  | .error _, .ok _ => False
  | .error t, .error e => t.Predicts e ∨ e.isDynamic

theorem Agree.of_isDynamic {R : α → β → Prop} {e : RunError} (he : e.isDynamic)
    (s : Except TypingError α) : Agree R s (.error e) := by
  cases s with
  | ok a => exact he
  | error t => exact .inr he

theorem Agree.of_ends {R : α → β → Prop} {a : α} {r : Except RunError β}
    (h : Ends (R a) (·.isDynamic) r) : Agree R (.ok a) r := by
  cases r with
  | ok b => exact h
  | error e => exact h

theorem Agree.ends {R : α → β → Prop} {a : α} {r : Except RunError β} (h : Agree R (.ok a) r) :
    Ends (R a) (·.isDynamic) r := by
  cases r with
  | ok b => exact h
  | error e => exact h

theorem Agree.of_error {R : α → β → Prop} {t : TypingError} {r : Except RunError β}
    (h : Agree R (.error t) r) : ∃ e, r = .error e ∧ (t.Predicts e ∨ e.isDynamic) := by
  cases r with
  | ok b => exact h.elim
  | error e => exact ⟨e, rfl, h⟩

theorem Agree.of_value {R : α → β → Prop} {s : Except TypingError α} {b : β}
    (h : Agree R s (.ok b)) : ∃ a, s = .ok a ∧ R a b := by
  cases s with
  | ok a => exact ⟨a, rfl, h⟩
  | error t => exact h.elim

/-- A failure of the first part settles the sequence. -/
theorem Agree.bind_error {R : α → β → Prop} {R' : γ → δ → Prop} {s : Except TypingError α}
    {e : RunError} (h : Agree R s (.error e)) (k : α → Except TypingError γ) :
    Agree R' (s >>= k) (.error e) := by
  cases s with
  | ok a => exact .of_isDynamic h _
  | error t => exact h

theorem Agree.bind {R : α → β → Prop} {R' : γ → δ → Prop} {s : Except TypingError α}
    {r : Except RunError β} {k : α → Except TypingError γ} {l : β → Except RunError δ}
    (h : Agree R s r) (hk : ∀ a b, R a b → Agree R' (k a) (l b)) :
    Agree R' (s >>= k) (r >>= l) := by
  cases r with
  | error e => exact h.bind_error k
  | ok b =>
    obtain ⟨a, rfl, hab⟩ := h.of_value
    exact hk a b hab

end Agree

/-! ## Kinds of values -/

/-- A test that refuses the values of all other types agrees with the check. -/
theorem matchType_agree {α : Type} {expected : Ty} {v : Value} {r : Except RunError α}
    (hok : expected = v.type → ∃ a, r = .ok a)
    (herr : expected ≠ v.type → r = .error (.typeError expected v)) :
    Agree (fun _ _ => True) (Check.matchType expected v.type).verdict r := by
  rw [Check.verdict_matchType]
  split
  · rename_i h
    obtain ⟨a, rfl⟩ := hok h
    exact trivial
  · rename_i h
    rw [herr h]
    exact .inl ⟨rfl, rfl⟩

theorem expectInt_agree (v : Value) :
    Agree (fun _ _ => True) (Check.matchType .int v.type).verdict v.expectInt := by
  apply matchType_agree <;> cases v <;> simp [Value.type, Value.expectInt]

theorem expectBool_agree (v : Value) :
    Agree (fun _ _ => True) (Check.matchType .bool v.type).verdict v.expectBool := by
  apply matchType_agree <;> cases v <;> simp [Value.type, Value.expectBool]

theorem expectString_agree (v : Value) :
    Agree (fun _ _ => True) (Check.matchType .string v.type).verdict v.expectString := by
  apply matchType_agree <;> cases v <;> simp [Value.type, Value.expectString]

/-! ## Operators -/

namespace BinOp

/-- Both operands are tested before anything is done with them, the left one first. -/
theorem both_agree {α : Type} {expected t : Ty} {expect : Value → Except RunError α}
    {f : α → α → Except RunError Value}
    (hexpect : ∀ v, Agree (fun _ _ => True) (Check.matchType expected v.type).verdict (expect v))
    (hf : ∀ a b, EndsAt t (f a b)) (left right : Value) :
    Agree (fun _ v => v.type = t)
      (do Check.matchType expected left.type; Check.matchType expected right.type :
        Check Unit).verdict
      (expect left >>= fun a => expect right >>= fun b => f a b) := by
  rw [Check.verdict_bind]
  refine (hexpect left).bind fun _ a _ => ?_
  rw [← bind_pure (Check.verdict _)]
  exact (hexpect right).bind fun _ b _ => .of_ends (hf a b)

theorem unlessZero_ends {e : RunError} (he : e.isDynamic) (divisor n : Int32) :
    EndsAt .int (unlessZero divisor e n) := by
  unfold unlessZero
  split
  · exact he
  · rfl

/-- **Operands are tested as the checker tests their types.**  Equality tests nothing. -/
theorem apply_agree {op : BinOp} (hop : op ≠ .eq) (left right : Value) :
    Agree (fun _ v => v.type = op.resultType) (matchOperands op left.type right.type).verdict
      (op.apply left right) := by
  cases op with
  | eq => exact absurd rfl hop
  | div | mod =>
    exact both_agree expectInt_agree (fun _ _ => unlessZero_ends rfl _ _) left right
  | and | or =>
    refine both_agree expectBool_agree (fun _ _ => ?_) left right
    rfl
  | _ =>
    refine both_agree expectInt_agree (fun _ _ => ?_) left right
    rfl

theorem apply_ends {op : BinOp} {left right : Value} (h : op.Accepts left.type right.type) :
    EndsAt op.resultType (op.apply left right) := by
  by_cases hop : op = .eq
  · subst hop
    rfl
  · have hagree := apply_agree hop left right
    have hok : (matchOperands op left.type right.type).verdict = .ok () :=
      verdict_matchOperands_eq_ok.mpr h
    rw [hok] at hagree
    exact hagree.ends

end BinOp

/-! ## Casts and streams -/

theorem type_of_cast? {target : Ty} {v w : Value} (h : cast? target v = some w) :
    w.type = target := by
  cases target with
  | string =>
    cases h
    rfl
  | int =>
    cases v with
    | int n => cases h; rfl
    | bool b => cases h; rfl
    | string s =>
      obtain ⟨n, -, rfl⟩ := Option.map_eq_some_iff.mp h
      rfl
    | unit => cases h
  | bool =>
    cases v with
    | bool b => cases h; rfl
    | string s =>
      obtain ⟨b, -, rfl⟩ := Option.map_eq_some_iff.mp h
      rfl
    | _ => cases h
  | unit =>
    cases v with
    | unit => cases h; rfl
    | _ => cases h

theorem cast_ends (v : Value) (target : Ty) :
    EndsAt target (cast v target) := by
  unfold cast
  split
  · rename_i w hw
    exact type_of_cast? hw
  · rfl

theorem Console.readLine_ends (c : Console) :
    Ends (fun _ => True) (·.isDynamic) c.readLine.1 := by
  refine c.readLine_fails.weaken ?_
  rintro _ (rfl | rfl)
  · rfl
  · rfl

theorem Console.writeLine_ends (c : Console) (s : String) :
    Ends (fun _ => True) (·.isDynamic) (c.writeLine s).1 := by
  refine (c.writeLine_fails s).weaken ?_
  rintro _ (rfl | rfl)
  · rfl
  · rfl

end ExprLang
