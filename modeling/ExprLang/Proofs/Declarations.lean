import Mathlib.Data.List.Induction
import Mathlib.Data.List.Nodup
import ExprLang.Proofs.StaticScoping
import ExprLang.Proofs.Inference

/-!
# Lists of definitions

What a list of definitions says, to the evaluator through its table and to the checker when it is
declared.  A name that is defined twice is refused by the one, and for the other its last definition
counts.

* `FunctionTable.lastOfEachName` — the definitions that no later one of the same name follows.

Principal results: `getElem?_ofDefinitions_eq_some_iff` — with distinct names the table holds just
the definitions of the list, so their order does not show in it; `getElem?_lastOfEachName` — nor do
definitions that are overridden; `declare_eq_ok_iff`, `declare_eq_error_iff` — only a repeated name
is refused; `Program.infer_of_nodup` — what is left of a program's check where none is;
`Program.infer_eq_ok_iff` — what it takes for a program to be accepted.
-/

set_option autoImplicit false

namespace ExprLang

namespace FunctionTable

variable {defs defs' : List Definition} {d : Definition} {f : Name}

/-! ## Entries of the table -/

theorem name_of_getElem?_ofDefinitions (h : (ofDefinitions defs)[f]? = some d) : d.name = f := by
  rw [getElem?_ofDefinitions] at h
  simpa using List.find?_some h

theorem getElem?_ofDefinitions_eq_none_iff :
    (ofDefinitions defs)[f]? = none ↔ f ∉ defs.map Definition.name := by
  simp [getElem?_ofDefinitions]

theorem mem_ofDefinitions : f ∈ ofDefinitions defs ↔ f ∈ defs.map Definition.name := by
  rw [Std.TreeMap.mem_iff_isSome_getElem?, ← Option.ne_none_iff_isSome, Ne,
    getElem?_ofDefinitions_eq_none_iff, not_not]

theorem getElem?_ofDefinitions_cons (d : Definition) (defs : List Definition) (f : Name) :
    (ofDefinitions (d :: defs))[f]? =
      (ofDefinitions defs)[f]?.or (if d.name = f then some d else none) := by
  rw [getElem?_ofDefinitions, getElem?_ofDefinitions, List.reverse_cons, List.find?_append]
  by_cases h : d.name = f <;> simp [h]

/-- With distinct names there is no other definition that could count. -/
theorem getElem?_ofDefinitions_eq_some_iff (hnames : (defs.map Definition.name).Nodup) :
    (ofDefinitions defs)[f]? = some d ↔ d ∈ defs ∧ d.name = f := by
  constructor
  · intro h
    exact ⟨mem_of_getElem?_ofDefinitions h, name_of_getElem?_ofDefinitions h⟩
  · rintro ⟨hmem, rfl⟩
    cases hentry : (ofDefinitions defs)[d.name]? with
    | none =>
      exact absurd (List.mem_map_of_mem hmem) (getElem?_ofDefinitions_eq_none_iff.mp hentry)
    | some d' =>
      have hmem' : d' ∈ defs := mem_of_getElem?_ofDefinitions hentry
      rw [List.inj_on_of_nodup_map hnames hmem' hmem (name_of_getElem?_ofDefinitions hentry)]

/-- **The order of definitions of distinct names does not show in the table.** -/
theorem getElem?_ofDefinitions_of_perm (hperm : defs.Perm defs')
    (hnames : (defs.map Definition.name).Nodup) (f : Name) :
    (ofDefinitions defs)[f]? = (ofDefinitions defs')[f]? := by
  have hnames' : (defs'.map Definition.name).Nodup :=
    (hperm.map Definition.name).nodup_iff.mp hnames
  apply Option.ext
  intro d
  rw [getElem?_ofDefinitions_eq_some_iff hnames, getElem?_ofDefinitions_eq_some_iff hnames',
    hperm.mem_iff]

/-! ## Overridden definitions -/

/-- Without the definitions that a later one of the same name follows. -/
def lastOfEachName : List Definition → List Definition
  | [] => []
  | d :: defs =>
    if d.name ∈ defs.map Definition.name then lastOfEachName defs else d :: lastOfEachName defs

theorem lastOfEachName_sublist (defs : List Definition) : (lastOfEachName defs).Sublist defs := by
  induction defs with
  | nil => exact .slnil
  | cons d defs ih =>
    rw [lastOfEachName]
    split
    · exact ih.cons d
    · exact ih.cons_cons d

theorem nodup_names_lastOfEachName (defs : List Definition) :
    ((lastOfEachName defs).map Definition.name).Nodup := by
  induction defs with
  | nil => exact .nil
  | cons d defs ih =>
    rw [lastOfEachName]
    split
    · exact ih
    · rename_i hd
      have hsub := ((lastOfEachName_sublist defs).map Definition.name).subset
      exact List.nodup_cons.mpr ⟨fun h => hd (hsub h), ih⟩

/-- **An overridden definition does not show in the table.** -/
theorem getElem?_lastOfEachName (defs : List Definition) (f : Name) :
    (ofDefinitions (lastOfEachName defs))[f]? = (ofDefinitions defs)[f]? := by
  induction defs with
  | nil => rfl
  | cons d defs ih =>
    rw [lastOfEachName, getElem?_ofDefinitions_cons]
    split
    · rename_i hd
      rw [ih]
      split
      · rename_i hf
        -- a later definition of this name is found first
        cases hentry : (ofDefinitions defs)[f]? with
        | none => exact absurd (hf ▸ hd) (getElem?_ofDefinitions_eq_none_iff.mp hentry)
        | some d' => rfl
      · rw [Option.or_none]
    · rw [getElem?_ofDefinitions_cons, ih]

end FunctionTable

/-! ## Declaration -/

section Declare

variable {defs before after : List Definition} {d : Definition}

theorem declare_append (before after : List Definition) :
    declare (before ++ after) = declare before >>= fun table => after.foldlM declareNext table :=
  List.foldlM_append

theorem nodup_names_concat :
    ((defs ++ [d]).map Definition.name).Nodup ↔
      d.name ∉ defs.map Definition.name ∧ (defs.map Definition.name).Nodup := by
  rw [List.map_append, List.map_singleton, ← List.concat_eq_append, List.nodup_concat]

/-- Distinct names can be declared, and what results is the evaluator's table. -/
theorem declare_of_nodup (h : (defs.map Definition.name).Nodup) :
    declare defs = .ok (.ofDefinitions defs) := by
  induction defs using List.reverseRecOn with
  | nil => rfl
  | append_singleton defs d ih =>
    obtain ⟨hd, hdefs⟩ := nodup_names_concat.mp h
    have hfree : d.name ∉ FunctionTable.ofDefinitions defs :=
      fun hmem => hd (FunctionTable.mem_ofDefinitions.mp hmem)
    have hnext : declareNext (.ofDefinitions defs) d = .ok (.ofDefinitions (defs ++ [d])) := by
      rw [declareNext, if_neg hfree, FunctionTable.ofDefinitions, FunctionTable.ofDefinitions,
        List.foldl_append]
      rfl
    rw [declare_append, ih hdefs]
    exact (bind_pure (declareNext (.ofDefinitions defs) d)).trans hnext

/-- The first definition whose name is taken stops the declaration. -/
theorem declare_of_repeated (hbefore : (before.map Definition.name).Nodup)
    (hd : d.name ∈ before.map Definition.name) :
    declare (before ++ d :: after) = .error (.multipleDefinitions d.name) := by
  have hnext : declareNext (.ofDefinitions before) d = .error (.multipleDefinitions d.name) :=
    if_pos (FunctionTable.mem_ofDefinitions.mpr hd)
  rw [declare_append, declare_of_nodup hbefore]
  show (declareNext (.ofDefinitions before) d >>= fun table => after.foldlM declareNext table) = _
  rw [hnext]
  rfl

theorem exists_repeated (h : ¬ (defs.map Definition.name).Nodup) :
    ∃ before d after, defs = before ++ d :: after ∧ (before.map Definition.name).Nodup ∧
      d.name ∈ before.map Definition.name := by
  induction defs using List.reverseRecOn with
  | nil => exact absurd .nil h
  | append_singleton defs d ih =>
    by_cases hdefs : (defs.map Definition.name).Nodup
    · have hd : d.name ∈ defs.map Definition.name := by
        by_contra hd
        exact h (nodup_names_concat.mpr ⟨hd, hdefs⟩)
      exact ⟨defs, d, [], rfl, hdefs, hd⟩
    · obtain ⟨before, d', after, rfl, hbefore, hd'⟩ := ih hdefs
      exact ⟨before, d', after ++ [d], by simp, hbefore, hd'⟩

theorem declare_eq_ok_iff {table : FunctionTable} :
    declare defs = .ok table ↔
      (defs.map Definition.name).Nodup ∧ table = .ofDefinitions defs := by
  constructor
  · intro h
    refine ⟨?_, declare_eq_ok h⟩
    by_contra hnames
    obtain ⟨before, d, after, rfl, hbefore, hd⟩ := exists_repeated hnames
    rw [declare_of_repeated hbefore hd] at h
    cases h
  · rintro ⟨hnames, rfl⟩
    exact declare_of_nodup hnames

/-- **Only a repeated name is refused.** -/
theorem declare_eq_error_iff :
    (∃ f, declare defs = .error (.multipleDefinitions f)) ↔ ¬ (defs.map Definition.name).Nodup := by
  constructor
  · rintro ⟨f, h⟩ hnames
    rw [declare_of_nodup hnames] at h
    cases h
  · intro hnames
    obtain ⟨before, d, after, rfl, hbefore, hd⟩ := exists_repeated hnames
    exact ⟨d.name, declare_of_repeated hbefore hd⟩

end Declare

/-! ## Programs -/

theorem Expr.each_sameSignature_of_getElem?_eq {table table' : FunctionTable}
    (h : ∀ f : Name, table[f]? = table'[f]?) (e : Expr) : e.Each (SameSignature table table') := by
  intro n _
  cases n with
  | call f args => exact congrArg _ (h f)
  | _ => trivial

/-- The check of a definition looks its names up and does not see how the table came about. -/
theorem checkDefinition_congr {table table' : FunctionTable}
    (h : ∀ f : Name, table[f]? = table'[f]?) (d : Definition) :
    checkDefinition table d = checkDefinition table' d := by
  rw [checkDefinition, checkDefinition,
    infer_congr (Expr.each_sameSignature_of_getElem?_eq h d.body) fun _ _ => rfl]

/-- With distinct names the checker works with the table that runs use. -/
theorem Program.infer_of_nodup {p : Program} (h : (p.functions.map Definition.name).Nodup) :
    p.infer = (do
      p.functions.forM (checkDefinition p.table)
      let t ← ExprLang.infer p.table Env.empty p.main
      Check.note (.mainType t)
      return t) := by
  rw [Program.infer, declare_of_nodup h]
  exact pure_bind p.table _

/-- **What it takes for a program to be accepted.** -/
theorem Program.infer_eq_ok_iff {p : Program} {t : Ty} :
    p.infer.verdict = .ok t ↔
      (p.functions.map Definition.name).Nodup ∧
        (∀ d ∈ p.functions, (checkDefinition p.table d).verdict = .ok ()) ∧
        (ExprLang.infer p.table Env.empty p.main).verdict = .ok t := by
  simp only [Program.infer, Check.verdict_bind_eq_ok, Check.verdict_ofExcept, declare_eq_ok_iff,
    Check.verdict_forM_eq_ok, Check.verdict_pure_eq_ok]
  constructor
  · rintro ⟨_, ⟨hnames, rfl⟩, _, hdefs, _, hmain, _, -, rfl⟩
    exact ⟨hnames, hdefs, hmain⟩
  · rintro ⟨hnames, hdefs, hmain⟩
    exact ⟨p.table, ⟨hnames, rfl⟩, (), hdefs, t, hmain, (), rfl, rfl⟩

end ExprLang
