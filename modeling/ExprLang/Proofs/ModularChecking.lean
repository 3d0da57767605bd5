import ExprLang.Demo
import ExprLang.Proofs.Declarations
import ExprLang.Proofs.Derivability
import ExprLang.Proofs.StaticScoping

/-!
# Modular checking

The check of an expression depends on the signatures of the functions that it calls and on the types
of its free variables.  A body can therefore be exchanged, and functions can be added, without
another look at the callers.

* `FunctionTable.Extends` — a table has all functions of another one, with the same signatures.
* `Definition.MayReplace` — a definition may stand in the place of another one.

Principal results: `HasType.of_extends` — what is derivable stays so in a larger table;
`Program.infer_eq_ok_of_extends` — an accepted program stays so if its table is extended and what
is new is in order; `checking_modular`.
-/

set_option autoImplicit false

namespace ExprLang

variable {table table' : FunctionTable} {p p' : Program} {t : Ty}

/-! ## Signatures of the functions called -/

theorem Expr.each_sameSignature {e : Expr}
    (h : ∀ f ∈ e.callees, table[f]?.map Definition.signature = table'[f]?.map Definition.signature) :
    e.Each (SameSignature table table') := by
  intro n hn
  cases n with
  | call f args => exact h f (mem_callees.mpr ⟨args, hn⟩)
  | _ => trivial

/-! ## Larger tables -/

/-- Every function of `table` is in `table'` too, with the same signature. -/
def FunctionTable.Extends (table' table : FunctionTable) : Prop :=
  ∀ (f : Name) (d : Definition), table[f]? = some d →
    ∃ d', table'[f]? = some d' ∧ d'.signature = d.signature

/-- **What is derivable stays so in a larger table.** -/
theorem HasType.of_extends {env : Env Ty} {e : Expr} (h : HasType table env e t)
    (hext : table'.Extends table) : HasType table' env e t := by
  induction h with
  | lit v => exact .lit v
  | var hx => exact .var hx
  | arithmetic hop _ _ ihl ihr => exact .arithmetic hop ihl ihr
  | comparison hop _ _ ihl ihr => exact .comparison hop ihl ihr
  | equality _ _ ihl ihr => exact .equality ihl ihr
  | connective hop _ _ ihl ihr => exact .connective hop ihl ihr
  | not _ ih => exact .not ih
  | letIn _ _ ihb ihk => exact .letIn ihb ihk
  | ite _ _ _ ihc ihy ihn => exact .ite ihc ihy ihn
  | @call _ f args d hd hlength _ ih =>
    obtain ⟨d', hd', hsame⟩ := hext f d hd
    obtain ⟨htypes, hresult⟩ := Prod.mk.inj hsame
    have hlength' : d'.params.length = args.length := by
      rw [← hlength]
      simpa using congrArg List.length htypes
    rw [← hresult]
    refine .call hd' hlength' ?_
    rw [htypes]
    exact ih
  | concat _ ih => exact .concat ih
  | print _ ih => exact .print ih
  | input => exact .input
  | cast target _ ih => exact .cast target ih

theorem checkDefinition_of_extends {d : Definition} (hext : table'.Extends table)
    (h : (checkDefinition table d).verdict = .ok ()) :
    (checkDefinition table' d).verdict = .ok () :=
  verdict_checkDefinition_eq_ok.mpr ((verdict_checkDefinition_eq_ok.mp h).of_extends hext)

/-- **An accepted program may be extended.**  Each definition has been checked, with the functions
there were or with those there are now. -/
theorem Program.infer_eq_ok_of_extends (hmain : p'.main = p.main)
    (hnames : (p'.functions.map Definition.name).Nodup) (hext : p'.table.Extends p.table)
    (hdefs : ∀ d ∈ p'.functions, (checkDefinition p.table d).verdict = .ok () ∨
      (checkDefinition p'.table d).verdict = .ok ())
    (h : p.infer.verdict = .ok t) : p'.infer.verdict = .ok t := by
  obtain ⟨-, -, hbody⟩ := infer_eq_ok_iff.mp h
  refine infer_eq_ok_iff.mpr ⟨hnames, fun d hd => ?_, ?_⟩
  · rcases hdefs d hd with hold | hnew
    · exact checkDefinition_of_extends hext hold
    · exact hnew
  · rw [hmain]
    exact infer_of_hasType ((hasType_of_infer hbody).of_extends hext)

/-! ## Replacing bodies -/

/-- The definition `d'` is `d`, or it has the name and the signature of `d` and passes its own
check. -/
def Definition.MayReplace (table : FunctionTable) (d d' : Definition) : Prop :=
  d' = d ∨ d'.name = d.name ∧ d'.signature = d.signature ∧
    (checkDefinition table d').verdict = .ok ()

section Replaced

variable {d d' : Definition} {defs defs' : List Definition}

theorem Definition.MayReplace.name_eq (h : d.MayReplace table d') : d'.name = d.name := by
  rcases h with rfl | ⟨hname, -⟩
  · rfl
  · exact hname

theorem Definition.MayReplace.signature_eq (h : d.MayReplace table d') :
    d'.signature = d.signature := by
  rcases h with rfl | ⟨-, hsignature, -⟩
  · rfl
  · exact hsignature

theorem names_of_replaced (h : List.Forall₂ (Definition.MayReplace table) defs defs') :
    defs'.map Definition.name = defs.map Definition.name := by
  induction h with
  | nil => rfl
  | cons hd _ ih => rw [List.map_cons, List.map_cons, hd.name_eq, ih]

theorem exists_replacement (h : List.Forall₂ (Definition.MayReplace table) defs defs')
    (hd : d ∈ defs) : ∃ d' ∈ defs', d.MayReplace table d' := by
  induction h with
  | nil => cases hd
  | cons hfirst _ ih =>
    rcases List.mem_cons.mp hd with rfl | hd
    · exact ⟨_, List.mem_cons_self, hfirst⟩
    · obtain ⟨d', hmem, hd'⟩ := ih hd
      exact ⟨d', List.mem_cons_of_mem _ hmem, hd'⟩

theorem checked_of_replaced (h : List.Forall₂ (Definition.MayReplace table) defs defs')
    (hdefs : ∀ d ∈ defs, (checkDefinition table d).verdict = .ok ()) :
    ∀ d' ∈ defs', (checkDefinition table d').verdict = .ok () := by
  induction h with
  | nil => exact hdefs
  | cons hfirst _ ih =>
    rw [List.forall_mem_cons] at hdefs ⊢
    refine ⟨?_, ih hdefs.2⟩
    rcases hfirst with rfl | ⟨-, -, hchecked⟩
    · exact hdefs.1
    · exact hchecked

theorem Program.infer_eq_ok_of_replaced (hmain : p'.main = p.main)
    (hreplaced : List.Forall₂ (Definition.MayReplace p.table) p.functions p'.functions)
    (h : p.infer.verdict = .ok t) : p'.infer.verdict = .ok t := by
  obtain ⟨hnames, hdefs, -⟩ := infer_eq_ok_iff.mp h
  have hnames' : (p'.functions.map Definition.name).Nodup := by
    rwa [names_of_replaced hreplaced]
  have hext : p'.table.Extends p.table := by
    intro f d hd
    obtain ⟨hmem, rfl⟩ := (FunctionTable.getElem?_ofDefinitions_eq_some_iff hnames).mp hd
    obtain ⟨d', hmem', hd'⟩ := exists_replacement hreplaced hmem
    exact ⟨d', (FunctionTable.getElem?_ofDefinitions_eq_some_iff hnames').mpr
      ⟨hmem', hd'.name_eq⟩, hd'.signature_eq⟩
  exact infer_eq_ok_of_extends hmain hnames' hext
    (fun d' hd' => .inl (checked_of_replaced hreplaced hdefs d' hd')) h

end Replaced

/-! ## Adding definitions -/

theorem Program.infer_eq_ok_of_added {added : List Definition} (hmain : p'.main = p.main)
    (hperm : p'.functions.Perm (p.functions ++ added))
    (hnodup : (added.map Definition.name).Nodup)
    (hfresh : ∀ d ∈ added, d.name ∉ p.functions.map Definition.name)
    (hadded : ∀ d ∈ added, (checkDefinition p'.table d).verdict = .ok ())
    (h : p.infer.verdict = .ok t) : p'.infer.verdict = .ok t := by
  obtain ⟨hnames, hdefs, -⟩ := infer_eq_ok_iff.mp h
  have hnames' : (p'.functions.map Definition.name).Nodup := by
    rw [(hperm.map Definition.name).nodup_iff, List.map_append]
    refine hnames.append hnodup fun f hf hf' => ?_
    obtain ⟨d, hd, rfl⟩ := List.mem_map.mp hf'
    exact hfresh d hd hf
  have hext : p'.table.Extends p.table := by
    intro f d hd
    obtain ⟨hmem, hname⟩ := (FunctionTable.getElem?_ofDefinitions_eq_some_iff hnames).mp hd
    have hmem' : d ∈ p'.functions := hperm.mem_iff.mpr (List.mem_append_left _ hmem)
    exact ⟨d, (FunctionTable.getElem?_ofDefinitions_eq_some_iff hnames').mpr ⟨hmem', hname⟩, rfl⟩
  refine infer_eq_ok_of_extends hmain hnames' hext (fun d hd => ?_) h
  rcases List.mem_append.mp (hperm.mem_iff.mp hd) with hd | hd
  · exact .inl (hdefs d hd)
  · exact .inr (hadded d hd)

/-! ## Main theorem -/

/-- **Checking is modular.**  With two tables that give every function called in an expression one
signature, or none, and two environments that agree on its free variables, the check of the
expression is the same, errors and notes included.  So an accepted program is accepted with the same
type after some of its definitions have been replaced by others of the same signatures that pass
their check, and after others of new names have been added, in any places, that pass it together
with them. -/
theorem checking_modular :
    (∀ (e : Expr) (table table' : FunctionTable) (env env' : Env Ty),
      (∀ f ∈ e.callees,
        table[f]?.map Definition.signature = table'[f]?.map Definition.signature) →
      Env.AgreeOn e.freeVars env env' → infer table env e = infer table' env' e) ∧
    ∀ (p p' : Program) (t : Ty), p.infer.verdict = .ok t → p'.main = p.main →
      (List.Forall₂ (Definition.MayReplace p.table) p.functions p'.functions →
        p'.infer.verdict = .ok t) ∧
      ∀ added : List Definition, p'.functions.Perm (p.functions ++ added) →
        (added.map Definition.name).Nodup →
        (∀ d ∈ added, d.name ∉ p.functions.map Definition.name) →
        (∀ d ∈ added, (checkDefinition p'.table d).verdict = .ok ()) →
        p'.infer.verdict = .ok t := by
  constructor
  · intro e table table' env env' hsignatures henv
    exact infer_congr (Expr.each_sameSignature hsignatures) henv
  · intro p p' t h hmain
    exact ⟨fun hreplaced => Program.infer_eq_ok_of_replaced hmain hreplaced h,
      fun added hperm hnodup hfresh hadded =>
        Program.infer_eq_ok_of_added hmain hperm hnodup hfresh hadded h⟩

/-- No recursion any more, and another name for the parameter. -/
def shortOdd : Definition where
  name := "odd"
  params := [("m", .int)]
  result := .bool
  body := .binop .eq (.binop .mod (.var "m") (.int 2)) (.int 1)

def parityReplaced : Program where
  functions := [Demo.parityFunction "even" true "odd", shortOdd]
  main := Demo.parity.main

/-- Calls itself and a function of the program that it is added to. -/
def nextEven : Definition where
  name := "next_even"
  params := [("n", .int)]
  result := .int
  body :=
    .ite (.call "even" [.var "n"]) (.var "n")
      (.call "next_even" [.binop .add (.var "n") (.int 1)])

def parityExtended : Program where
  functions := nextEven :: Demo.parity.functions
  main := Demo.parity.main

theorem checking_modular_parity :
    infer Demo.parity.table Env.empty Demo.parity.main =
      infer parityReplaced.table (Env.empty.bind "n" .unit) Demo.parity.main ∧
    Demo.parity.infer.verdict = .ok .string ∧
    parityReplaced.infer.verdict = .ok .string ∧ parityExtended.infer.verdict = .ok .string := by
  obtain ⟨hsame, hprograms⟩ := checking_modular
  have hinfer : Demo.parity.infer.verdict = .ok .string := rfl
  obtain ⟨hreplace, -⟩ := hprograms Demo.parity parityReplaced .string hinfer rfl
  obtain ⟨-, hadd⟩ := hprograms Demo.parity parityExtended .string hinfer rfl
  have hperm : parityExtended.functions.Perm (Demo.parity.functions ++ [nextEven]) :=
    (List.perm_append_singleton nextEven Demo.parity.functions).symm
  refine ⟨hsame _ _ _ _ _ (by decide) (fun x hx => ?_), hinfer, ?_, ?_⟩
  · cases hx
  · exact hreplace (.cons (.inl rfl) (.cons (.inr ⟨rfl, rfl, rfl⟩) .nil))
  · exact hadd [nextEven] hperm (by decide) (by decide) (List.forall_mem_singleton.mpr rfl)

end ExprLang
