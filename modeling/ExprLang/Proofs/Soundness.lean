import ExprLang.Eval.Eval
import ExprLang.Proofs.Agreement

/-!
# Type soundness

Checker and evaluator walk over an expression independently of each other.  What ties them together
is an invariant of runs: in an environment whose values fit the types, an expression of a type
gives a value of this type, fails with a dynamic error or does not finish, and on the way every
function and every operator is given what it was declared to take.

* `Env.Fits` — the values of an environment have the types of another.
* `Event.WellTyped` — a call or an operator is applied to values of the right types.
* `typedConduct` — all events are well typed, all errors dynamic.

Principal results: `eval_obeys` — the invariant, by induction on the budget of a run;
`type_soundness` — how accepted expressions and programs end; `events_wellTyped` — what happens
before they end.
-/

set_option autoImplicit false

namespace ExprLang

/-! ## Environments -/

namespace Env

/-- Every name with a type has a value of this type. -/
def Fits (types : Env Ty) (values : Env Value) : Prop :=
  ∀ (x : Name) (t : Ty), types.find? x = some t → ∃ v, values.find? x = some v ∧ v.type = t

theorem Fits.empty : Fits empty empty := by
  intro x t h
  cases h

/-- The types of the values themselves. -/
theorem fits_map (values : Env Value) : (values.map Value.type).Fits values := by
  intro x t h
  rw [find?_map] at h
  exact Option.map_eq_some_iff.mp h

theorem Fits.bind {types : Env Ty} {values : Env Value} (h : types.Fits values) (x : Name)
    (v : Value) : (types.bind x v.type).Fits (values.bind x v) := by
  intro y t hy
  rw [find?_bind] at hy ⊢
  split at hy
  · rename_i hyx
    cases hy
    exact ⟨v, if_pos hyx, rfl⟩
  · rename_i hyx
    rw [if_neg hyx]
    exact h y t hy

/-- Parameters are bound as their types are, repeated names included. -/
theorem Fits.bindAll {params : List (Name × Ty)} {vs : List Value}
    (hvs : vs.map Value.type = params.map Prod.snd) {types : Env Ty} {values : Env Value}
    (h : types.Fits values) :
    (types.bindAll params).Fits (values.bindAll ((params.map Prod.fst).zip vs)) := by
  induction params generalizing vs types values with
  | nil => exact h
  | cons param params ih =>
    cases vs with
    | nil => cases hvs
    | cons v vs =>
      obtain ⟨x, t⟩ := param
      obtain ⟨rfl, htail⟩ := List.cons.inj hvs
      exact ih htail (h.bind x v)

end Env

/-! ## Events -/

/-- The arguments of a call have the declared types, the operands of an operator types that it
takes. -/
def Event.WellTyped (table : FunctionTable) : Event → Prop
  | .calling f args =>
    ∃ d, table[f]? = some d ∧ args.map Value.type = d.params.map Prod.snd
  | .applying op left right => op.Accepts left.type right.type
  | .casting _ _ | .reading _ | .writing _ => True

/-- All events are well typed, and all errors are dynamic. -/
def typedConduct (table : FunctionTable) : Conduct :=
  .ofEvents (Event.WellTyped table) (·.isDynamic)

namespace Run

variable {table : FunctionTable}

theorem record_obeys {e : Event} (he : e.WellTyped table) :
    (record e).Obeys (typedConduct table) fun _ => True :=
  .record fun _ => .of_cons rfl he

theorem readLine_obeys : readLine.Obeys (typedConduct table) fun _ => True :=
  .ofStep fun c => ⟨.of_cons rfl trivial, c.readLine_ends⟩

theorem writeLine_obeys (s : String) : (writeLine s).Obeys (typedConduct table) fun _ => True :=
  .ofStep fun c => ⟨.of_cons rfl trivial, c.writeLine_ends s⟩

/-- A value of the type that is tested for passes the test. -/
theorem expect_obeys {α : Type} {expect : Value → Except RunError α} {t : Ty}
    (hexpect : ∀ v, Agree (fun _ _ => True) (Check.matchType t v.type).verdict (expect v))
    {v : Value} (hv : v.type = t) :
    (ofExcept (expect v)).Obeys (typedConduct table) fun _ => True := by
  have hok : (Check.matchType t v.type).verdict = .ok () :=
    Check.verdict_matchType_eq_ok.mpr hv.symm
  have h := hexpect v
  rw [hok] at h
  exact .ofExcept h.ends

end Run

/-! ## The invariant of runs -/

/-- **Every run of a well-typed expression is well typed.**  The induction is on the budget, for
the body of a function is no part of the call. -/
theorem eval_obeys {table : FunctionTable} (hF : table.Checked) {n : Nat} {types : Env Ty}
    {values : Env Value} {e : Expr} {t : Ty} (ht : HasType table types e t)
    (hv : types.Fits values) :
    (eval table n values e).Obeys (typedConduct table) fun v => v.type = t := by
  induction n generalizing types values e t with
  | zero => exact .unfinished
  | succ n ih =>
    cases e with
    | lit v =>
      cases ht
      exact .pure rfl
    | var x =>
      cases ht with
      | var hx =>
        obtain ⟨v, hxv, hvt⟩ := hv x _ hx
        rw [eval, hxv]
        exact .pure hvt
    | binop op left right =>
      obtain ⟨u, w, hl, hr, hop, rfl⟩ := hasType_binop.mp ht
      have hleft := ih hl hv
      have hright := ih hr hv
      rw [eval]
      refine hleft.bind fun a ha => hright.bind fun b hb => ?_
      subst ha hb
      refine (Run.record_obeys (e := .applying op a b) hop).bind fun _ _ => ?_
      exact .ofExcept (BinOp.apply_ends hop)
    | not e =>
      cases ht with
      | not he =>
        rw [eval]
        refine (ih he hv).bind fun v hvt => ?_
        exact (Run.expect_obeys expectBool_agree hvt).bind fun _ _ => .pure rfl
    | letIn x bound body =>
      cases ht with
      | letIn hb hk =>
        rw [eval]
        refine (ih hb hv).bind fun v hvt => ?_
        subst hvt
        exact ih hk (hv.bind x v)
    | ite test yes no =>
      cases ht with
      | ite hc hy hn =>
        have htest := ih hc hv
        have hyes := ih hy hv
        have hno := ih hn hv
        rw [eval]
        refine htest.bind fun v hvt => (Run.expect_obeys expectBool_agree hvt).bind ?_
        intro b _
        split
        · exact hyes
        · exact hno
    | call f args =>
      cases ht with
      | call hd hlen hargs =>
        rename_i d
        have hrun : List.Forall₂ (fun t a =>
            (eval table n values a).Obeys (typedConduct table) fun v => v.type = t)
            (d.params.map Prod.snd) args := by
          refine List.forall₂_iff_zip.mpr ⟨by rw [List.length_map, hlen], fun hp => ?_⟩
          exact ih (hargs _ hp) hv
        rw [eval]
        refine (Run.Obeys.ofOption fun h => ?_).bind fun d' hd' => ?_
        · rw [hd] at h
          cases h
        obtain rfl : d = d' := Option.some.inj (hd.symm.trans hd')
        refine (Run.Obeys.ensure fun h => absurd hlen h).bind fun _ _ => ?_
        refine (Run.Obeys.mapM hrun).bind fun vs hvs => ?_
        have hvt : vs.map Value.type = d.params.map Prod.snd := by
          rw [← List.forall₂_eq_eq_eq, List.forall₂_map_left_iff]
          exact hvs.flip
        refine (Run.record_obeys (e := .calling f vs) ⟨d, hd, hvt⟩).bind fun _ _ => ?_
        -- the body sees the parameters alone, as in its check
        exact ih (hF.hasType hd) (Env.Fits.empty.bindAll hvt)
    | concat parts =>
      cases ht with
      | concat hparts =>
        have hrun : List.Forall₂ (fun _ a => (do
            Run.ofExcept (← eval table n values a).expectString : Run String).Obeys
              (typedConduct table) fun _ => True) parts parts := by
          refine List.forall₂_same.mpr fun a ha => ?_
          exact (ih (hparts a ha) hv).bind fun v hvt => Run.expect_obeys expectString_agree hvt
        rw [eval]
        exact (Run.Obeys.mapM hrun).bind fun _ _ => .pure rfl
    | print e =>
      cases ht with
      | print he =>
        rw [eval]
        refine (ih he hv).bind fun v hvt => ?_
        refine (Run.expect_obeys expectString_agree hvt).bind fun s _ => ?_
        exact (Run.writeLine_obeys s).bind fun _ _ => .pure rfl
    | input =>
      cases ht
      rw [eval]
      exact Run.readLine_obeys.bind fun _ _ => .pure rfl
    | cast target e =>
      cases ht with
      | cast _ he =>
        rw [eval]
        refine (ih he hv).bind fun v _ => ?_
        refine (Run.record_obeys (e := .casting v t) trivial).bind fun _ _ => ?_
        exact .ofExcept (cast_ends v t)

theorem Program.run_obeys {p : Program} {t : Ty} (h : p.infer.verdict = .ok t) (budget : Nat) :
    (p.run budget).Obeys (typedConduct p.table) fun v => v.type = t := by
  obtain ⟨-, hF, hmain⟩ := infer_eq_ok h
  exact eval_obeys hF (hasType_of_infer hmain) .empty

/-! ## Main theorems -/

/-- Counts down to zero, and divides by it. -/
def countdown : Program where
  functions :=
    [{ name := "f", params := [("n", .int)], result := .int,
       body :=
        .ite (.binop .eq (.var "n") (.int 0)) (.binop .div (.int 1) (.var "n"))
          (.call "f" [.binop .sub (.var "n") (.int 1)]) }]
  main := .call "f" [.int 1]

/-- **Type soundness.**  With checked functions and fitting values, an accepted expression ends
with a value of its type or with a dynamic error, on whatever streams it runs.  So does an
accepted program, whose functions are checked against the very table that it runs with. -/
theorem type_soundness :
    (∀ (table : FunctionTable) (types : Env Ty) (values : Env Value) (e : Expr) (t : Ty),
      table.Checked → types.Fits values → (infer table types e).verdict = .ok t →
      ∀ (budget : Nat) (c : Console) (r : Except RunError Value) (d : Console),
        (eval table budget values e).on c = some (r, d) → EndsAt t r) ∧
    ∀ (p : Program) (t : Ty), p.infer.verdict = .ok t →
      declare p.functions = .ok p.table ∧
      ∀ (budget : Nat) (c : Console) (r : Except RunError Value) (d : Console),
        (p.run budget).on c = some (r, d) → EndsAt t r := by
  constructor
  · intro table types values e t hF hv ht budget c r d hr
    exact (eval_obeys hF (hasType_of_infer ht) hv c r d hr).2
  · intro p t h
    obtain ⟨hdecl, -, -⟩ := Program.infer_eq_ok h
    refine ⟨hdecl, fun budget c r d hr => ?_⟩
    exact (Program.run_obeys h budget c r d hr).2

theorem type_soundness_countdown :
    (infer countdown.table (Env.empty.bind "m" .int) (.call "f" [.var "m"])).verdict = .ok .int ∧
    countdown.infer.verdict = .ok .int ∧
    (∃ d, (eval countdown.table 9 (Env.empty.bind "m" (.int 1)) (.call "f" [.var "m"])).on
      (.faultless []) = some (.error .divisionByZero, d)) ∧
    EndsAt .int (.error .divisionByZero) ∧
    declare countdown.functions = .ok countdown.table ∧
    ∀ r d, (countdown.run 9).on (.faultless []) = some (r, d) →
      EndsAt .int r := by
  have hp : countdown.infer.verdict = .ok .int := rfl
  have hF : countdown.table.Checked := (Program.infer_eq_ok hp).2.1
  have hv : (Env.empty.bind "m" .int).Fits (Env.empty.bind "m" (.int 1)) :=
    Env.Fits.empty.bind "m" (.int 1)
  have hrun : ∃ d, (eval countdown.table 9 (Env.empty.bind "m" (.int 1))
      (.call "f" [.var "m"])).on (.faultless []) = some (.error .divisionByZero, d) := ⟨_, rfl⟩
  obtain ⟨d, hd⟩ := hrun
  obtain ⟨hdecl, hends⟩ := type_soundness.2 countdown .int hp
  exact ⟨rfl, hp, ⟨d, hd⟩, type_soundness.1 _ _ _ _ _ hF hv rfl 9 _ _ d hd, hdecl, hends 9 _⟩

/-- **No ill-typed step.**  Whatever an accepted program ends with, all that happened in its run
was well typed: each function entered had arguments of the declared types, each operator applied
had operands that it takes. -/
theorem events_wellTyped {p : Program} {t : Ty} (h : p.infer.verdict = .ok t) {budget : Nat}
    {c d : Console} {r : Except RunError Value} (hr : (p.run budget).on c = some (r, d)) :
    ∃ later, d.events = later ++ c.events ∧ ∀ ev ∈ later, ev.WellTyped p.table :=
  (Program.run_obeys h budget c r d hr).1

theorem events_wellTyped_countdown :
    countdown.infer.verdict = .ok .int ∧
    ∃ d, (countdown.run 9).on (.faultless []) = some (.error .divisionByZero, d) ∧
      d.events.length = 6 ∧
      ∃ later, d.events = later ++ [] ∧ ∀ ev ∈ later, ev.WellTyped countdown.table := by
  have hp : countdown.infer.verdict = .ok .int := rfl
  have hrun : ∃ d, (countdown.run 9).on (.faultless []) = some (.error .divisionByZero, d) ∧
      d.events.length = 6 := ⟨_, rfl, rfl⟩
  obtain ⟨d, hd, hlen⟩ := hrun
  exact ⟨hp, d, hd, hlen, events_wellTyped hp hd⟩

end ExprLang
