import ExprLang.Proofs.Declarations
import ExprLang.Proofs.ErrorSources

/-!
# Errors are true

An error makes a statement: that a value or a type is not the expected one, that a function is not
defined or takes another number of arguments, that a value cannot be converted, that a name is taken.
Whatever run or check an error comes from, and however deep in it, what it states is the case.

* `FunctionTable.Takes` — the definition that counts has so many parameters.
* `RunError.IsTrue`, `TypingError.IsTrue` — what an error states.
* `Check.FailsWith` — whatever error a check ends with has a property; one rule for each way to build
  a check.

Principal results: `isTrue_maintains` — no node raises an error that is not true;
`infer_failsWith_isTrue` — no expression is refused for a false reason; `errors_are_true`.
-/

set_option autoImplicit false

namespace ExprLang

variable {α β : Type}

/-! ## What errors state -/

def FunctionTable.Takes (table : FunctionTable) (f : Name) (count : Nat) : Prop :=
  ∃ d, table[f]? = some d ∧ d.params.length = count

/-- Of variables, divisors and streams an error states nothing that the table could show. -/
def RunError.IsTrue (table : FunctionTable) : RunError → Prop
  | .typeError expected found => found.type ≠ expected
  | .undefinedFunction f => table[f]? = none
  | .arityMismatch f expected actual => table.Takes f expected ∧ expected ≠ actual
  | .castFailure v target => cast v target = .error (.castFailure v target) ∧ v.type ≠ target
  | .unboundName _ | .divisionByZero | .moduloByZero | .endOfInput | .channel _ => True

/-- `defs` are the definitions that have been declared. -/
def TypingError.IsTrue (table : FunctionTable) (defs : List Definition) : TypingError → Prop
  | .typeMismatch expected actual => expected ≠ actual
  | .undefinedFunction f => table[f]? = none
  | .arityMismatch f expected actual => table.Takes f expected ∧ expected ≠ actual
  | .multipleDefinitions f => 2 ≤ (defs.map Definition.name).count f
  | .unboundName _ => True

/-! ## Runs -/

/-- Every value can be converted to its own type. -/
theorem cast?_type (v : Value) : cast? v.type v = some v := by
  cases v <;> rfl

theorem isTrue_castFailure (table : FunctionTable) {v : Value} {target : Ty}
    (h : cast? target v = none) : (RunError.castFailure v target).IsTrue table := by
  refine ⟨by rw [cast, h], ?_⟩
  rintro rfl
  rw [cast?_type] at h
  cases h

/-- **No node raises an error that is not true**, in whatever environment it is evaluated. -/
theorem isTrue_maintains (table : FunctionTable) :
    Maintains table (.ofFault (·.IsTrue table)) (fun _ _ => True) where
  operand _ _ := trivial
  body _ _ := trivial
  callee _ _ _ := trivial
  raises := by
    intro _ _ _ _ h
    cases h with
    | applied herr =>
      cases herr with
      | operand hne => exact hne
      | divisor | modulus => trivial
    | negated hne | tested hne | joined hne | printed hne => exact hne
    | undefined hnone => exact hnone
    | arity hd hne => exact ⟨⟨_, hd, rfl⟩, hne⟩
    | cast hnone => exact isTrue_castFailure table hnone
    | unbound _ | output _ | endOfInput | unreadable => trivial
  notes _ _ := trivial
  reads _ _ := trivial
  writes _ _ _ := trivial

/-! ## Checks -/

namespace Check

def FailsWith (m : Check α) (P : TypingError → Prop) : Prop :=
  ∀ err, m.verdict = .error err → P err

variable {P : TypingError → Prop}

theorem FailsWith.pure (a : α) : (pure a : Check α).FailsWith P := by
  intro err h
  cases h

theorem FailsWith.note (n : Note) : (note n).FailsWith P := by
  intro err h
  cases h

theorem FailsWith.ofOption {a? : Option α} {e : TypingError} (h : a? = none → P e) :
    (ofOption a? e).FailsWith P := by
  intro err herr
  cases a? with
  | none =>
    cases herr
    exact h rfl
  | some a => cases herr

theorem FailsWith.ensure {p : Prop} [Decidable p] {e : TypingError} (h : ¬ p → P e) :
    (ensure p e).FailsWith P := by
  intro err herr
  rw [verdict_ensure] at herr
  split at herr
  · cases herr
  · rename_i hp
    cases herr
    exact h hp

/-- The second part counts only where the first one succeeds. -/
theorem FailsWith.bind {m : Check α} {k : α → Check β} (hm : m.FailsWith P)
    (hk : ∀ a, m.verdict = .ok a → (k a).FailsWith P) : (m >>= k).FailsWith P := by
  intro err herr
  rw [verdict_bind] at herr
  cases hverdict : m.verdict with
  | error e =>
    rw [hverdict] at herr
    cases herr
    exact hm _ hverdict
  | ok a =>
    rw [hverdict] at herr
    exact hk a hverdict err herr

theorem FailsWith.forM {f : α → Check Unit} {as : List α} (h : ∀ a ∈ as, (f a).FailsWith P) :
    (as.forM f).FailsWith P := by
  induction as with
  | nil => exact .pure ()
  | cons a as ih =>
    rw [List.forall_mem_cons] at h
    exact h.1.bind fun _ _ => ih h.2

end Check

section Infer

variable {table : FunctionTable} {defs : List Definition}

theorem matchType_failsWith_isTrue (expected actual : Ty) :
    (Check.matchType expected actual).FailsWith (·.IsTrue table defs) :=
  .ensure fun hne => hne

theorem matchOperands_failsWith_isTrue (op : BinOp) (left right : Ty) :
    (matchOperands op left right).FailsWith (·.IsTrue table defs) := by
  unfold matchOperands
  split
  · exact (matchType_failsWith_isTrue _ _).bind fun _ _ => matchType_failsWith_isTrue _ _
  · exact matchType_failsWith_isTrue _ _

theorem inferArgs_failsWith_isTrue {env : Env Ty} {es : List Expr}
    (h : ∀ e ∈ es, (infer table env e).FailsWith (·.IsTrue table defs)) (types : List Ty) :
    (inferArgs table env types es).FailsWith (·.IsTrue table defs) := by
  induction es generalizing types with
  | nil => cases types <;> exact .pure ()
  | cons e es ih =>
    rw [List.forall_mem_cons] at h
    cases types with
    | nil => exact .pure ()
    | cons t types =>
      rw [inferArgs]
      refine h.1.bind fun u _ => (matchType_failsWith_isTrue t u).bind fun _ _ => ?_
      exact ih h.2 types

/-- **No expression is refused for a false reason.** -/
theorem infer_failsWith_isTrue (env : Env Ty) (e : Expr) :
    (infer table env e).FailsWith (·.IsTrue table defs) := by
  induction e using Expr.inductionOn generalizing env with
  | lit v => exact .pure _
  | var x => exact .ofOption fun _ => trivial
  | binop op l r ihl ihr =>
    rw [infer]
    refine (ihl env).bind fun t _ => (ihr env).bind fun u _ => ?_
    exact (matchOperands_failsWith_isTrue op t u).bind fun _ _ => .pure _
  | not e ih =>
    rw [infer]
    exact (ih env).bind fun t _ => (matchType_failsWith_isTrue _ t).bind fun _ _ => .pure _
  | letIn x b k ihb ihk =>
    rw [infer]
    exact (ihb env).bind fun t _ => ihk (env.bind x t)
  | ite c y n ihc ihy ihn =>
    rw [infer]
    refine (ihc env).bind fun t _ => (matchType_failsWith_isTrue _ t).bind fun _ _ => ?_
    refine (ihy env).bind fun u _ => (ihn env).bind fun w _ => ?_
    exact (matchType_failsWith_isTrue u w).bind fun _ _ => .pure _
  | call f args ih =>
    rw [infer]
    refine (Check.FailsWith.ofOption fun hnone => hnone).bind fun d hd => ?_
    have htakes : table.Takes f d.params.length :=
      ⟨d, Check.verdict_ofOption_eq_ok.mp hd, rfl⟩
    refine (Check.FailsWith.ensure fun hne => ⟨htakes, hne⟩).bind fun _ _ => ?_
    exact (inferArgs_failsWith_isTrue (fun a ha => ih a ha env) _).bind fun _ _ => .pure _
  | concat parts ih =>
    rw [infer]
    exact (inferArgs_failsWith_isTrue (fun a ha => ih a ha env) _).bind fun _ _ => .pure _
  | print e ih =>
    rw [infer]
    exact (ih env).bind fun t _ => (matchType_failsWith_isTrue _ t).bind fun _ _ => .pure _
  | input => exact .pure _
  | cast target e ih =>
    rw [infer]
    exact (ih env).bind fun t _ => (Check.FailsWith.note _).bind fun _ _ => .pure _

theorem checkDefinition_failsWith_isTrue (d : Definition) :
    (checkDefinition table d).FailsWith (·.IsTrue table defs) := by
  unfold checkDefinition
  refine (Check.FailsWith.note _).bind fun _ _ => ?_
  exact (infer_failsWith_isTrue _ d.body).bind fun t _ => matchType_failsWith_isTrue d.result t

end Infer

/-! ## Declarations and programs -/

/-- A name is refused only if an earlier definition has it. -/
theorem isTrue_of_declare_eq_error {defs : List Definition} {err : TypingError}
    (h : declare defs = .error err) (table : FunctionTable) : err.IsTrue table defs := by
  by_cases hnames : (defs.map Definition.name).Nodup
  · rw [declare_of_nodup hnames] at h
    cases h
  · obtain ⟨before, d, after, rfl, hbefore, hd⟩ := exists_repeated hnames
    rw [declare_of_repeated hbefore hd] at h
    cases h
    have hearlier : 0 < (before.map Definition.name).count d.name := List.count_pos_iff.mpr hd
    show 2 ≤ ((before ++ d :: after).map Definition.name).count d.name
    rw [List.map_append, List.count_append, List.map_cons, List.count_cons_self]
    omega

theorem Program.infer_failsWith_isTrue (p : Program) :
    p.infer.FailsWith (·.IsTrue p.table p.functions) := by
  unfold Program.infer
  have hdeclare : (Check.ofExcept (declare p.functions)).FailsWith (·.IsTrue p.table p.functions) :=
    fun err h => isTrue_of_declare_eq_error h p.table
  refine hdeclare.bind fun table htable => ?_
  -- the table that was declared is the one that runs use
  obtain rfl : table = p.table := declare_eq_ok htable
  refine (Check.FailsWith.forM fun d _ => checkDefinition_failsWith_isTrue d).bind fun _ _ => ?_
  refine (ExprLang.infer_failsWith_isTrue _ p.main).bind fun t _ => ?_
  exact (Check.FailsWith.note _).bind fun _ _ => .pure t

/-! ## Main theorem -/

/-- **Errors are true.**  This holds of the errors of runs, of expressions and programs, accepted or
not, and of those of all checks. -/
theorem errors_are_true :
    (∀ (table : FunctionTable) (budget : Nat) (env : Env Value) (e : Expr) (c d : Console)
      (err : RunError), (eval table budget env e).on c = some (.error err, d) → err.IsTrue table) ∧
    (∀ (p : Program) (budget : Nat) (c d : Console) (err : RunError),
      (p.run budget).on c = some (.error err, d) → err.IsTrue p.table) ∧
    (∀ (table : FunctionTable) (env : Env Ty) (e : Expr) (err : TypingError),
      (infer table env e).verdict = .error err → err.IsTrue table []) ∧
    (∀ (table : FunctionTable) (d : Definition) (err : TypingError),
      (checkDefinition table d).verdict = .error err → err.IsTrue table []) ∧
    (∀ (defs : List Definition) (err : TypingError), declare defs = .error err →
      err.IsTrue (.ofDefinitions defs) defs) ∧
    ∀ (p : Program) (err : TypingError), p.infer.verdict = .error err →
      err.IsTrue p.table p.functions := by
  have hruns : ∀ (table : FunctionTable) (budget : Nat) (env : Env Value) (e : Expr)
      (c d : Console) (err : RunError), (eval table budget env e).on c = some (.error err, d) →
        err.IsTrue table := by
    intro table budget env e c d err h
    exact (obeys_of_maintains (isTrue_maintains table) budget trivial c _ d h).2
  refine ⟨hruns, ?_, ?_, ?_, ?_, ?_⟩
  · intro p budget c d err h
    exact hruns p.table budget .empty p.main c d err h
  · intro table env e err h
    exact infer_failsWith_isTrue env e err h
  · intro table d err h
    exact checkDefinition_failsWith_isTrue d err h
  · intro defs err h
    exact isTrue_of_declare_eq_error h _
  · intro p err h
    exact p.infer_failsWith_isTrue err h

/-- The second definition of `f` counts, and takes one argument more than it is given. -/
def redefined : Program where
  functions :=
    [{ name := "f", params := [("n", .int)], result := .int, body := .call "g" [.var "n"] },
     { name := "f", params := [("n", .int), ("m", .int)], result := .int,
       body := .ite (.var "n") (.cast .bool (.string "yes")) (.call "g" [.var "n"]) }]
  main := .call "f" [.int 1]

theorem errors_are_true_redefined :
    (∃ d, (redefined.run 9).on (.faultless []) = some (.error (.arityMismatch "f" 2 1), d) ∧
      (RunError.arityMismatch "f" 2 1).IsTrue redefined.table) ∧
    (∃ d, (eval redefined.table 9 .empty (.call "f" [.int 1, .int 2])).on (.faultless []) =
        some (.error (.typeError .bool (.int 1)), d) ∧
      (RunError.typeError .bool (.int 1)).IsTrue redefined.table) ∧
    (∃ d, (eval redefined.table 9 .empty (.call "f" [.bool true, .int 2])).on (.faultless []) =
        some (.error (.castFailure (.string "yes") .bool), d) ∧
      (RunError.castFailure (.string "yes") .bool).IsTrue redefined.table) ∧
    (∃ d, (eval redefined.table 9 .empty (.call "f" [.bool false, .int 2])).on (.faultless []) =
        some (.error (.undefinedFunction "g"), d) ∧
      (RunError.undefinedFunction "g").IsTrue redefined.table) ∧
    (infer redefined.table .empty redefined.main).verdict = .error (.arityMismatch "f" 2 1) ∧
    (TypingError.arityMismatch "f" 2 1).IsTrue redefined.table [] ∧
    redefined.functions.map (fun d => (checkDefinition redefined.table d).verdict) =
      [.error (.undefinedFunction "g"), .error (.typeMismatch .bool .int)] ∧
    declare redefined.functions = .error (.multipleDefinitions "f") ∧
    redefined.infer.verdict = .error (.multipleDefinitions "f") ∧
    (TypingError.multipleDefinitions "f").IsTrue redefined.table redefined.functions := by
  obtain ⟨hruns, hprograms, hinfer, -, -, hcheck⟩ := errors_are_true
  have harity : ∃ d, (redefined.run 9).on (.faultless []) =
      some (.error (.arityMismatch "f" 2 1), d) := ⟨_, rfl⟩
  have htest : ∃ d, (eval redefined.table 9 .empty (.call "f" [.int 1, .int 2])).on
      (.faultless []) = some (.error (.typeError .bool (.int 1)), d) := ⟨_, rfl⟩
  have hcast : ∃ d, (eval redefined.table 9 .empty (.call "f" [.bool true, .int 2])).on
      (.faultless []) = some (.error (.castFailure (.string "yes") .bool), d) := ⟨_, rfl⟩
  have hnone : ∃ d, (eval redefined.table 9 .empty (.call "f" [.bool false, .int 2])).on
      (.faultless []) = some (.error (.undefinedFunction "g"), d) := ⟨_, rfl⟩
  obtain ⟨d₁, harity⟩ := harity
  obtain ⟨d₂, htest⟩ := htest
  obtain ⟨d₃, hcast⟩ := hcast
  obtain ⟨d₄, hnone⟩ := hnone
  exact ⟨⟨d₁, harity, hprograms _ _ _ _ _ harity⟩, ⟨d₂, htest, hruns _ _ _ _ _ _ _ htest⟩,
    ⟨d₃, hcast, hruns _ _ _ _ _ _ _ hcast⟩, ⟨d₄, hnone, hruns _ _ _ _ _ _ _ hnone⟩, rfl,
    hinfer _ .empty redefined.main _ rfl, rfl, rfl, rfl, hcheck redefined _ rfl⟩

end ExprLang
