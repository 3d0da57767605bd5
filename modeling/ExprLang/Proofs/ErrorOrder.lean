import ExprLang.Proofs.Declarations

/-!
# The order of typing errors

A program may be wrong in many places, and one error is reported.  Repeated names come before
everything else; then the definitions are checked in their order, each against all of them; the main
expression comes last.

* `Definition.Repeats`, `Definition.RefusedBy` — what may be wrong with a definition.
* `Somewhere`, `IsFirst` — a list has an entry with a property, and this entry is the first such.

Principal results: `nodup_names_iff` — names are distinct where no definition repeats one;
`Check.verdict_forM_of_isFirst` — the first failure decides on a list of checks;
`first_error_reported`.
-/

set_option autoImplicit false

namespace ExprLang

/-! ## First entries -/

section First

variable {α : Type} {P : List α → α → Prop} {as : List α}

/-- Some entry has the property `P`, which may look at the entries before it. -/
def Somewhere (P : List α → α → Prop) (as : List α) : Prop :=
  ∃ before a after, as = before ++ a :: after ∧ P before a

/-- Of the entries with the property, `a` is the first. -/
def IsFirst (P : List α → α → Prop) (as : List α) (a : α) : Prop :=
  ∃ before after, as = before ++ a :: after ∧ P before a ∧ ¬ Somewhere P before

theorem somewhere_concat {a : α} : Somewhere P (as ++ [a]) ↔ Somewhere P as ∨ P as a := by
  constructor
  · rintro ⟨before, b, after, heq, hb⟩
    rcases List.eq_nil_or_concat after with rfl | ⟨after, c, rfl⟩
    · obtain ⟨rfl, hsame⟩ := List.append_inj' heq rfl
      cases hsame
      exact .inr hb
    · rw [List.concat_eq_append, ← List.cons_append, ← List.append_assoc] at heq
      exact .inl ⟨before, b, after, (List.append_inj' heq rfl).1, hb⟩
  · rintro (⟨before, b, after, rfl, hb⟩ | ha)
    · exact ⟨before, b, after ++ [a], by simp, hb⟩
    · exact ⟨as, a, [], rfl, ha⟩

theorem Somewhere.exists_isFirst (h : Somewhere P as) : ∃ a, IsFirst P as a := by
  induction as using List.reverseRecOn with
  | nil =>
    obtain ⟨before, a, after, heq, -⟩ := h
    simp at heq
  | append_singleton as a ih =>
    by_cases has : Somewhere P as
    · obtain ⟨b, before, after, rfl, hb⟩ := ih has
      exact ⟨b, before, after ++ [a], by simp, hb⟩
    · exact ⟨a, as, [], rfl, (somewhere_concat.mp h).resolve_left has, has⟩

end First

/-! ## Definitions with an error -/

namespace Definition

/-- A definition before has the same name. -/
def Repeats (before : List Definition) (d : Definition) : Prop :=
  d.name ∈ before.map Definition.name

/-- The body of the definition does not pass its check, whatever stands before. -/
def RefusedBy (table : FunctionTable) (_before : List Definition) (d : Definition) : Prop :=
  ∃ err, (checkDefinition table d).verdict = .error err

end Definition

/-- Names are distinct where no definition repeats one. -/
theorem nodup_names_iff {defs : List Definition} :
    (defs.map Definition.name).Nodup ↔ ¬ Somewhere Definition.Repeats defs := by
  induction defs using List.reverseRecOn with
  | nil => simp [Somewhere]
  | append_singleton defs d ih =>
    rw [nodup_names_concat, somewhere_concat, not_or, ih, and_comm]
    rfl

theorem declare_of_isFirst {defs : List Definition} {d : Definition}
    (h : IsFirst Definition.Repeats defs d) :
    declare defs = .error (.multipleDefinitions d.name) := by
  obtain ⟨before, after, rfl, hd, hbefore⟩ := h
  exact declare_of_repeated (nodup_names_iff.mpr hbefore) hd

/-! ## Checks one after the other -/

namespace Check

variable {α β : Type}

theorem verdict_bind_of_error {m : Check α} {err : TypingError} (h : m.verdict = .error err)
    (k : α → Check β) : (m >>= k).verdict = .error err := by
  rw [verdict_bind, h]
  rfl

/-- What comes after a check that succeeds decides. -/
theorem verdict_bind_of_ok {m : Check α} {a : α} (h : m.verdict = .ok a) (k : α → Check β) :
    (m >>= k).verdict = (k a).verdict := by
  rw [verdict_bind, h]
  rfl

/-- **The first failure decides on a list of checks.** -/
theorem verdict_forM_of_first {f : α → Check Unit} {before after : List α} {a : α}
    {err : TypingError} (hbefore : ∀ b ∈ before, (f b).verdict = .ok ())
    (ha : (f a).verdict = .error err) : ((before ++ a :: after).forM f).verdict = .error err := by
  induction before with
  | nil => exact verdict_bind_of_error ha _
  | cons b before ih =>
    rw [List.forall_mem_cons] at hbefore
    exact (verdict_bind_of_ok hbefore.1 _).trans (ih hbefore.2)

end Check

/-! ## Definitions and the main expression -/

section Definitions

variable {table : FunctionTable} {defs : List Definition}

theorem not_somewhere_refusedBy :
    ¬ Somewhere (Definition.RefusedBy table) defs ↔
      ∀ d ∈ defs, (checkDefinition table d).verdict = .ok () := by
  constructor
  · intro h d hd
    obtain ⟨before, after, rfl⟩ := List.append_of_mem hd
    cases hverdict : (checkDefinition table d).verdict with
    | ok u => rfl
    | error err => exact absurd ⟨before, d, after, rfl, err, hverdict⟩ h
  · rintro h ⟨before, d, after, rfl, err, herr⟩
    rw [h d (by simp)] at herr
    cases herr

/-- The definitions are checked in order. -/
theorem verdict_forM_checkDefinition_of_isFirst {d : Definition} {err : TypingError}
    (h : IsFirst (Definition.RefusedBy table) defs d)
    (herr : (checkDefinition table d).verdict = .error err) :
    (defs.forM (checkDefinition table)).verdict = .error err := by
  obtain ⟨before, after, rfl, -, hbefore⟩ := h
  exact Check.verdict_forM_of_first (not_somewhere_refusedBy.mp hbefore) herr

end Definitions

section Program

variable {p : Program}

theorem Program.infer_of_isFirst_repeats {d : Definition}
    (h : IsFirst Definition.Repeats p.functions d) :
    p.infer.verdict = .error (.multipleDefinitions d.name) := by
  rw [Program.infer, declare_of_isFirst h]
  rfl

theorem Program.infer_of_isFirst_refusedBy {d : Definition} {err : TypingError}
    (hnames : (p.functions.map Definition.name).Nodup)
    (h : IsFirst (Definition.RefusedBy p.table) p.functions d)
    (herr : (checkDefinition p.table d).verdict = .error err) : p.infer.verdict = .error err := by
  rw [infer_of_nodup hnames]
  exact Check.verdict_bind_of_error (verdict_forM_checkDefinition_of_isFirst h herr) _

/-- Where no definition is refused the main expression decides. -/
theorem Program.infer_of_not_refused (hnames : (p.functions.map Definition.name).Nodup)
    (h : ¬ Somewhere (Definition.RefusedBy p.table) p.functions) :
    p.infer.verdict = (ExprLang.infer p.table Env.empty p.main).verdict := by
  have hdefs : (p.functions.forM (checkDefinition p.table)).verdict = .ok () :=
    Check.verdict_forM_eq_ok.mpr (not_somewhere_refusedBy.mp h)
  rw [infer_of_nodup hnames, Check.verdict_bind_of_ok hdefs, Check.verdict_bind]
  exact bind_pure (ExprLang.infer p.table Env.empty p.main).verdict

theorem Program.verdict_typecheck (p : Program) :
    p.typecheck.verdict = p.infer.verdict.map fun _ => () := by
  rw [typecheck, Check.verdict_bind]
  cases p.infer.verdict <;> rfl

end Program

/-! ## Main theorem -/

/-- **One error is reported, and which one is settled.**  The first repeated name comes before
everything else.  Otherwise the table that is declared holds what runs look up, and of the
definitions that are refused against this table the first one decides; if there is none, the main
expression does.  A check that does not ask for the type succeeds and fails alike. -/
theorem first_error_reported (p : Program) :
    (Somewhere Definition.Repeats p.functions →
      ∃ d, IsFirst Definition.Repeats p.functions d ∧
        declare p.functions = .error (.multipleDefinitions d.name) ∧
        p.infer.verdict = .error (.multipleDefinitions d.name)) ∧
    (¬ Somewhere Definition.Repeats p.functions →
      ∃ table, declare p.functions = .ok table ∧ (∀ f : Name, table[f]? = p.table[f]?) ∧
        (Somewhere (Definition.RefusedBy table) p.functions →
          ∃ d err, IsFirst (Definition.RefusedBy table) p.functions d ∧
            (checkDefinition table d).verdict = .error err ∧ p.infer.verdict = .error err) ∧
        (¬ Somewhere (Definition.RefusedBy table) p.functions →
          p.infer.verdict = (infer table Env.empty p.main).verdict)) ∧
    (p.typecheck.verdict = .ok () ↔ ∃ t, p.infer.verdict = .ok t) ∧
    ∀ err, p.typecheck.verdict = .error err ↔ p.infer.verdict = .error err := by
  refine ⟨fun hrepeats => ?_, fun hdistinct => ?_, ?_⟩
  · obtain ⟨d, hd⟩ := hrepeats.exists_isFirst
    exact ⟨d, hd, declare_of_isFirst hd, Program.infer_of_isFirst_repeats hd⟩
  · have hnames : (p.functions.map Definition.name).Nodup := nodup_names_iff.mpr hdistinct
    refine ⟨p.table, declare_of_nodup hnames, fun _ => rfl, fun hrefused => ?_, fun hnone => ?_⟩
    · obtain ⟨d, hd⟩ := hrefused.exists_isFirst
      obtain ⟨before, after, heq, ⟨err, herr⟩, hbefore⟩ := id hd
      exact ⟨d, err, hd, herr, Program.infer_of_isFirst_refusedBy hnames hd herr⟩
    · exact Program.infer_of_not_refused hnames hnone
  · rw [Program.verdict_typecheck]
    cases p.infer.verdict <;> simp [Except.map]

/-- The first function calls the second one, which is wrong as the third one is, and as the main
expression is. -/
def faulty : Program where
  functions :=
    [{ name := "f", params := [("n", .int)], result := .int, body := .call "g" [.var "n"] },
     { name := "g", params := [("n", .int)], result := .int, body := .var "m" },
     { name := "h", params := [], result := .int, body := .bool true }]
  main := .call "k" []

/-- The second function is defined again, and after that the first one. -/
def faultyAndRepeated : Program where
  functions :=
    faulty.functions ++
      [{ name := "g", params := [], result := .unit, body := .lit .unit },
       { name := "f", params := [], result := .unit, body := .lit .unit }]
  main := faulty.main

/-- Only the main expression is wrong. -/
def faultyMain : Program where
  functions := faulty.functions.take 1 ++
    [{ name := "g", params := [("n", .int)], result := .int, body := .call "f" [.var "n"] }]
  main := faulty.main

theorem first_error_reported_faulty :
    Somewhere Definition.Repeats faultyAndRepeated.functions ∧
    (∃ d, IsFirst Definition.Repeats faultyAndRepeated.functions d ∧ d.name = "g" ∧
      declare faultyAndRepeated.functions = .error (.multipleDefinitions d.name) ∧
      faultyAndRepeated.infer.verdict = .error (.multipleDefinitions d.name)) ∧
    ¬ Somewhere Definition.Repeats faulty.functions ∧
    (∃ table, declare faulty.functions = .ok table ∧
      Somewhere (Definition.RefusedBy table) faulty.functions ∧
      ∃ d err, IsFirst (Definition.RefusedBy table) faulty.functions d ∧
        (checkDefinition table d).verdict = .error err ∧ err = .unboundName "m" ∧
        faulty.infer.verdict = .error err) ∧
    ¬ Somewhere Definition.Repeats faultyMain.functions ∧
    (∃ table, declare faultyMain.functions = .ok table ∧
      ¬ Somewhere (Definition.RefusedBy table) faultyMain.functions ∧
      faultyMain.infer.verdict = (infer table Env.empty faultyMain.main).verdict) ∧
    faultyMain.typecheck.verdict = .error (.undefinedFunction "k") := by
  have hrepeats : Somewhere Definition.Repeats faultyAndRepeated.functions := by
    by_contra hnone
    exact absurd (nodup_names_iff.mpr hnone) (by decide)
  have hdistinct : ¬ Somewhere Definition.Repeats faulty.functions :=
    nodup_names_iff.mp (by decide)
  have hdistinct' : ¬ Somewhere Definition.Repeats faultyMain.functions :=
    nodup_names_iff.mp (by decide)
  obtain ⟨hfirst, -⟩ := first_error_reported faultyAndRepeated
  obtain ⟨-, hsecond, -⟩ := first_error_reported faulty
  obtain ⟨-, hmain, -, hsame⟩ := first_error_reported faultyMain
  refine ⟨hrepeats, ?_, hdistinct, ?_, hdistinct', ?_, (hsame _).mpr rfl⟩
  · obtain ⟨d, hd, hdeclare, hinfer⟩ := hfirst hrepeats
    have hg : declare faultyAndRepeated.functions = .error (.multipleDefinitions "g") := rfl
    have hname := hdeclare.symm.trans hg
    rw [Except.error.injEq, TypingError.multipleDefinitions.injEq] at hname
    exact ⟨d, hd, hname, hdeclare, hinfer⟩
  · obtain ⟨table, htable, -, hrefused, -⟩ := hsecond hdistinct
    obtain rfl : faulty.table = table := (declare_eq_ok htable).symm
    have hfaulty : Somewhere (Definition.RefusedBy faulty.table) faulty.functions :=
      ⟨faulty.functions.take 1, _, _, rfl, .unboundName "m", rfl⟩
    obtain ⟨d, err, hd, herr, hinfer⟩ := hrefused hfaulty
    have hm : faulty.infer.verdict = .error (.unboundName "m") := rfl
    rw [hm] at hinfer
    cases hinfer
    exact ⟨_, htable, hfaulty, d, _, hd, herr, rfl, hm⟩
  · obtain ⟨table, htable, -, -, hrest⟩ := hmain hdistinct'
    obtain rfl : faultyMain.table = table := (declare_eq_ok htable).symm
    have hdefs : (faultyMain.functions.forM (checkDefinition faultyMain.table)).verdict = .ok () :=
      rfl
    have hpass : ¬ Somewhere (Definition.RefusedBy faultyMain.table) faultyMain.functions :=
      not_somewhere_refusedBy.mpr (Check.verdict_forM_eq_ok.mp hdefs)
    exact ⟨_, htable, hpass, hrest hpass⟩

end ExprLang
