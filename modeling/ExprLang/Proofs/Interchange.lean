import ExprLang.Proofs.CallsAsBindings
import ExprLang.Proofs.Declarations
import ExprLang.Proofs.Renaming

/-!
# Definitions that can be interchanged

Callers see of a function its name and its signature, the checker sees besides whether its body is in
order, and a run what the body does with the arguments.  Definitions that are alike in this can take
each other's place anywhere in a program, recursion included, without a trace in checks and runs.
Two definitions that differ in the name of a parameter are of this kind.

* `Definition.Interchangeable` — alike for callers, checker and runs.
* `FunctionTable.Interchangeable` — entry by entry.

Principal results: `eval_interchange` — expressions run alike with interchangeable tables;
`Program.infer_interchange`, `Program.run_interchange` — so do programs, and the checker says the same
of them; `interchangeable_renameParam`; `bound_names_irrelevant`.
-/

set_option autoImplicit false

namespace ExprLang

/-- With the other definition's body in its place nobody could tell: it is checked with the same
outcome, and with as many arguments as there are parameters it runs in the same way. -/
structure Definition.Interchangeable (d d' : Definition) : Prop where
  name : d.name = d'.name
  signature : d.signature = d'.signature
  body_infer (table : FunctionTable) :
    infer table (Env.empty.bindAll d.params) d.body =
      infer table (Env.empty.bindAll d'.params) d'.body
  body_eval (table : FunctionTable) (n : Nat) {values : List Value} :
    values.length = d.params.length →
      eval table n (Env.empty.bindAll ((d.params.map Prod.fst).zip values)) d.body =
        eval table n (Env.empty.bindAll ((d'.params.map Prod.fst).zip values)) d'.body

def FunctionTable.Interchangeable (table table' : FunctionTable) : Prop :=
  ∀ f : Name, (table[f]? = none ∧ table'[f]? = none) ∨
    ∃ d d', table[f]? = some d ∧ table'[f]? = some d' ∧ d.Interchangeable d'

namespace Definition.Interchangeable

variable {d d' : Definition}

theorem refl (d : Definition) : d.Interchangeable d where
  name := rfl
  signature := rfl
  body_infer _ := rfl
  body_eval _ _ _ _ := rfl

theorem length_params (h : d.Interchangeable d') : d.params.length = d'.params.length := by
  have htypes : d.params.map Prod.snd = d'.params.map Prod.snd := congrArg Prod.fst h.signature
  simpa using congrArg List.length htypes

end Definition.Interchangeable

/-! ## Tables -/

namespace FunctionTable

variable {defs defs' : List Definition}

theorem interchangeable_ofDefinitions (h : List.Forall₂ Definition.Interchangeable defs defs') :
    (ofDefinitions defs).Interchangeable (ofDefinitions defs') := by
  intro f
  induction h with
  | nil => exact .inl ⟨rfl, rfl⟩
  | @cons d d' defs defs' hd _ ih =>
    rw [getElem?_ofDefinitions_cons, getElem?_ofDefinitions_cons]
    rcases ih with ⟨hnone, hnone'⟩ | ⟨e, e', he, he', hrel⟩
    · rw [hnone, hnone', Option.none_or, Option.none_or, ← hd.name]
      split
      · exact .inr ⟨d, d', rfl, rfl, hd⟩
      · exact .inl ⟨rfl, rfl⟩
    · rw [he, he']
      exact .inr ⟨e, e', rfl, rfl, hrel⟩

end FunctionTable

/-! ## Runs -/

theorem Run.ext {α : Type} {m m' : Run α} (h : ∀ c, m.on c = m'.on c) : m = m' :=
  ExceptT.ext (StateT.ext h)

/-- What follows matters only for values that the first part can give. -/
theorem Run.bind_congr {α β : Type} {m : Run α} {k k' : α → Run β}
    (h : ∀ a c d, m.on c = some (.ok a, d) → k a = k' a) : m >>= k = m >>= k' := by
  refine Run.ext fun c => ?_
  rw [run_bind, run_bind]
  cases hm : m.on c with
  | none => rfl
  | some x =>
    obtain ⟨r, d⟩ := x
    cases r with
    | ok a => exact congrArg (·.on d) (h a c d hm)
    | error e => rfl

theorem Run.of_ensure {p : Prop} [Decidable p] {e : RunError} {c d : Console}
    (h : (ensure p e).on c = some (.ok (), d)) : p := by
  rw [run_ensure] at h
  split at h
  · assumption
  · cases h

section Interchange

variable {table table' : FunctionTable}

/-- **Expressions run alike with interchangeable tables.**  The induction is on the budget: a body is
first run with the other table, and there it may take the place of the other body. -/
theorem eval_interchange (h : table.Interchangeable table') (n : Nat) (env : Env Value) (e : Expr) :
    eval table n env e = eval table' n env e := by
  induction n generalizing env e with
  | zero => rfl
  | succ n ih =>
    have hall : eval table n = eval table' n := funext fun env => funext fun e => ih env e
    cases e with
    | lit _ | var _ | input => rfl
    | binop _ _ _ | not _ | letIn _ _ _ | ite _ _ _ | concat _ | print _ | cast _ _ =>
      rw [eval, eval, hall]
    | call f args =>
      rw [eval, eval, hall]
      rcases h f with ⟨hf, hf'⟩ | ⟨d, d', hf, hf', hd⟩
      · rw [hf, hf']
      · rw [hf, hf']
        simp only [Run.ofOption, pure_bind]
        rw [← hd.length_params]
        refine Run.bind_congr fun _ c c' hlen => Run.bind_congr fun values _ _ hvalues => ?_
        have hcount : values.length = d.params.length :=
          (length_of_mapM hvalues).trans (Run.of_ensure hlen).symm
        rw [hd.body_eval table' n hcount]

theorem infer_interchange (h : table.Interchangeable table') (env : Env Ty) (e : Expr) :
    infer table env e = infer table' env e := by
  refine infer_congr (fun n _ => ?_) fun _ _ => rfl
  cases n with
  | call f args =>
    rcases h f with ⟨hf, hf'⟩ | ⟨d, d', hf, hf', hd⟩
    · exact congrArg _ (hf.trans hf'.symm)
    · rw [Expr.SameSignature, hf, hf', Option.map_some, Option.map_some, hd.signature]
  | _ => trivial

theorem checkDefinition_interchange (h : table.Interchangeable table') {d d' : Definition}
    (hd : d.Interchangeable d') : checkDefinition table d = checkDefinition table' d' := by
  have hresult : d.result = d'.result := congrArg Prod.snd hd.signature
  rw [checkDefinition, checkDefinition, hd.name, hresult, hd.body_infer table,
    infer_interchange h]

end Interchange

/-! ## Programs -/

theorem forM_congr_forall₂ {α β : Type} {R : α → β → Prop} {as : List α} {bs : List β}
    {f : α → Check Unit} {g : β → Check Unit} (h : List.Forall₂ R as bs)
    (hfg : ∀ a b, R a b → f a = g b) : as.forM f = bs.forM g := by
  induction h with
  | nil => rfl
  | cons hab _ ih => rw [List.forM, List.forM, hfg _ _ hab, ih]

/-- What is declared twice can be seen from the names alone. -/
theorem declare_repeated_congr {defs defs' : List Definition}
    (hnames : defs.map Definition.name = defs'.map Definition.name)
    (hrepeated : ¬ (defs.map Definition.name).Nodup) :
    ∃ f, declare defs = .error (.multipleDefinitions f) ∧
      declare defs' = .error (.multipleDefinitions f) := by
  obtain ⟨before, d, after, rfl, hbefore, hd⟩ := exists_repeated hrepeated
  rw [List.map_append, List.map_cons] at hnames
  obtain ⟨before', rest', rfl, hbefore', hrest'⟩ := List.map_eq_append_iff.mp hnames.symm
  obtain ⟨d', after', rfl, hd', -⟩ := List.map_eq_cons_iff.mp hrest'
  refine ⟨d.name, declare_of_repeated hbefore hd, ?_⟩
  rw [← hd', declare_of_repeated]
  · rwa [hbefore']
  · rwa [hbefore', hd']

section Programs

variable {p p' : Program}

theorem Program.run_interchange (hmain : p.main = p'.main)
    (h : List.Forall₂ Definition.Interchangeable p.functions p'.functions) (budget : Nat) :
    p.run budget = p'.run budget := by
  rw [run, run, hmain]
  exact eval_interchange (FunctionTable.interchangeable_ofDefinitions h) budget .empty p'.main

/-- **The checker says the same of programs whose definitions are interchangeable**, whatever error
it finds. -/
theorem Program.infer_interchange (hmain : p.main = p'.main)
    (h : List.Forall₂ Definition.Interchangeable p.functions p'.functions) : p.infer = p'.infer := by
  have htables : p.table.Interchangeable p'.table := FunctionTable.interchangeable_ofDefinitions h
  have hnames : p.functions.map Definition.name = p'.functions.map Definition.name := by
    rw [← List.forall₂_eq_eq_eq, List.forall₂_map_left_iff, List.forall₂_map_right_iff]
    exact h.imp fun _ _ hd => hd.name
  by_cases hdistinct : (p.functions.map Definition.name).Nodup
  · have hchecks : p.functions.forM (checkDefinition p.table) =
        p'.functions.forM (checkDefinition p'.table) :=
      forM_congr_forall₂ h fun d d' hd => checkDefinition_interchange htables hd
    rw [infer_of_nodup hdistinct, infer_of_nodup (hnames ▸ hdistinct), hchecks, hmain,
      ExprLang.infer_interchange htables]
  · obtain ⟨f, hf, hf'⟩ := declare_repeated_congr hnames hdistinct
    rw [infer, infer, hf, hf']
    rfl

end Programs

/-! ## Parameters -/

theorem interchangeable_renameParam {d : Definition} {x y : Name} (hx : x ∈ d.params.map Prod.fst)
    (hy : y ∉ d.params.map Prod.fst) (hbody : ¬ d.body.Mentions y) :
    d.Interchangeable (d.renameParam x y) where
  name := rfl
  signature := by simp [Definition.signature, Definition.renameParam]
  body_infer table := infer_rename table (Env.Renames.bindAll hx hy) hbody
  body_eval table n values hlen := by
    have hfst : ((d.params.map Prod.fst).zip values).map Prod.fst = d.params.map Prod.fst :=
      List.map_fst_zip (by simp [hlen])
    have hnew : ((d.renameParam x y).params.map Prod.fst).zip values =
        ((d.params.map Prod.fst).zip values).map (Prod.map (replaceName x y) id) := by
      rw [← List.zip_map_left, Definition.renameParam, List.map_map, List.map_map]
      rfl
    rw [← hfst] at hx hy
    rw [hnew]
    exact eval_rename table n (Env.Renames.bindAll hx hy) hbody

/-! ## Main theorem -/

/-- **Bound names do not matter.**  The name of a binding may be replaced by one that does not occur in
its body, and the name of a parameter by one that no parameter has and that does not occur in the body
of its function, which may call itself.  Checks and runs of expressions and of whole programs, their
errors and their logs included, stay what they were. -/
theorem bound_names_irrelevant :
    (∀ (x y : Name) (bound body : Expr), ¬ body.Mentions y → ∀ table : FunctionTable,
      (∀ types : Env Ty, infer table types (.letIn x bound body) =
        infer table types (.letIn y bound (body.rename x y))) ∧
      ∀ (budget : Nat) (env : Env Value) (c : Console),
        (eval table budget env (.letIn x bound body)).on c =
          (eval table budget env (.letIn y bound (body.rename x y))).on c) ∧
    ∀ (p p' : Program) (before after : List Definition) (d : Definition) (x y : Name),
      p.functions = before ++ d :: after → x ∈ d.params.map Prod.fst →
      y ∉ d.params.map Prod.fst → ¬ d.body.Mentions y →
      p'.functions = before ++ d.renameParam x y :: after → p'.main = p.main →
      p'.infer = p.infer ∧
        ∀ (budget : Nat) (c : Console), (p'.run budget).on c = (p.run budget).on c := by
  refine ⟨fun x y bound body hy table => ⟨fun types => ?_, fun budget env c => ?_⟩, ?_⟩
  · exact infer_letIn_rename table types bound hy
  · rw [eval_letIn_rename table budget env bound hy]
  · intro p p' before after d x y hfunctions hx hy hbody hfunctions' hmain
    have hsame : ∀ defs : List Definition, List.Forall₂ Definition.Interchangeable defs defs :=
      fun defs => List.forall₂_same.mpr fun d _ => .refl d
    have hall : List.Forall₂ Definition.Interchangeable p.functions p'.functions := by
      rw [hfunctions, hfunctions']
      exact List.rel_append (hsame before)
        (.cons (interchangeable_renameParam hx hy hbody) (hsame after))
    refine ⟨(Program.infer_interchange hmain.symm hall).symm, fun budget c => ?_⟩
    rw [Program.run_interchange hmain.symm hall]

/-- The inner binding hides `x`, and with it the outer binding, from its own body on. -/
def hidingSum : Expr := .binop .add (.var "x") (.letIn "x" (.string "in") (.cast .int (.var "x")))

/-- Counts down by calls of itself, and prints its text with `n` hidden. -/
def hidingCountdown : Definition where
  name := "f"
  params := [("n", .int), ("s", .string)]
  result := .unit
  body :=
    .ite (.binop .eq (.var "n") (.int 0)) (.letIn "n" (.var "s") (.print (.var "n")))
      (.call "f" [.binop .sub (.var "n") (.int 1), .var "s"])

def countdownBy (d : Definition) : Program where
  functions := [d]
  main := .call "f" [.int 1, .string "go"]

theorem bound_names_irrelevant_hiding :
    (¬ hidingSum.Mentions "y" ∧
      hidingSum.rename "x" "y" =
        .binop .add (.var "y") (.letIn "x" (.string "in") (.cast .int (.var "x"))) ∧
      (infer ∅ (Env.empty.bind "y" .string)
        (.letIn "y" (.int 1) (hidingSum.rename "x" "y"))).verdict = .ok .int ∧
      ∃ d, (eval ∅ 9 (Env.empty.bind "y" (.string "out"))
        (.letIn "y" (.int 1) (hidingSum.rename "x" "y"))).on (.faultless []) =
          some (.error (.castFailure (.string "in") .int), d)) ∧
    ¬ hidingCountdown.body.Mentions "m" ∧
    (hidingCountdown.renameParam "n" "m").params = [("m", .int), ("s", .string)] ∧
    (countdownBy (hidingCountdown.renameParam "n" "m")).infer.verdict = .ok .unit ∧
    ∃ d, ((countdownBy (hidingCountdown.renameParam "n" "m")).run 9).on (.faultless []) =
        some (.ok .unit, d) ∧
      d.output = Utf8.encode "go\n" := by
  have hsum : ¬ hidingSum.Mentions "y" := by
    simp [Expr.Mentions, hidingSum, Expr.nodes, Expr.string]
  have hbody : ¬ hidingCountdown.body.Mentions "m" := by
    simp [Expr.Mentions, hidingCountdown, Expr.nodes, Expr.nodesAll, Expr.int]
  have hbinding : ∃ d, (eval ∅ 9 (Env.empty.bind "y" (.string "out"))
      (.letIn "x" (.int 1) hidingSum)).on (.faultless []) =
        some (.error (.castFailure (.string "in") .int), d) := ⟨_, rfl⟩
  have hprogram : ∃ d, ((countdownBy hidingCountdown).run 9).on (.faultless []) =
      some (.ok .unit, d) ∧ d.output = Utf8.encode "go\n" := ⟨_, rfl, rfl⟩
  obtain ⟨hbindings, hprograms⟩ := bound_names_irrelevant
  obtain ⟨hinfer, hrun⟩ := hbindings "x" "y" (.int 1) hidingSum hsum ∅
  obtain ⟨hinfer', hrun'⟩ := hprograms (countdownBy hidingCountdown)
    (countdownBy (hidingCountdown.renameParam "n" "m")) [] [] hidingCountdown "n" "m" rfl
    (by decide) (by decide) hbody rfl rfl
  rw [← hinfer, ← hrun, hinfer', hrun']
  exact ⟨⟨hsum, rfl, rfl, hbinding⟩, hbody, rfl, rfl, hprogram⟩

end ExprLang
