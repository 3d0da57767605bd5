import ExprLang.Proofs.Declarations
import ExprLang.Proofs.Inference

/-!
# Inference and derivability

The checker finds a type exactly where the rules derive one, and the rules derive at most one.  With
a table and an environment it therefore decides the judgement.

Principal results: `infer_of_hasType` — no derivation is missed; `HasType.unique`;
`verdict_checkDefinition_eq_ok`, `Program.infer_eq_ok_iff_bodies` — definitions and programs are
accepted for the derivations of their bodies; `infer_eq_ok_iff_hasType`.
-/

set_option autoImplicit false

namespace ExprLang

variable {table : FunctionTable} {env : Env Ty} {e : Expr} {t : Ty}

theorem verdict_infer_binop_eq_ok {op : BinOp} {left right : Expr} :
    (infer table env (.binop op left right)).verdict = .ok t ↔
      ∃ u w, (infer table env left).verdict = .ok u ∧ (infer table env right).verdict = .ok w ∧
        op.Accepts u w ∧ t = op.resultType := by
  simp only [infer, Check.verdict_bind_eq_ok, verdict_matchOperands_eq_ok,
    Check.verdict_pure_eq_ok]
  constructor
  · rintro ⟨u, hl, w, hr, _, hop, rfl⟩
    exact ⟨u, w, hl, hr, hop, rfl⟩
  · rintro ⟨u, w, hl, hr, hop, rfl⟩
    exact ⟨u, hl, w, hr, (), hop, rfl⟩

/-- **What is derivable is found.** -/
theorem infer_of_hasType (h : HasType table env e t) : (infer table env e).verdict = .ok t := by
  induction e using Expr.inductionOn generalizing env t with
  | lit v =>
    cases h
    rfl
  | var x =>
    cases h with
    | var hx => exact Check.verdict_ofOption_eq_ok.mpr hx
  | binop op l r ihl ihr =>
    obtain ⟨u, w, hl, hr, hop, rfl⟩ := hasType_binop.mp h
    exact verdict_infer_binop_eq_ok.mpr ⟨u, w, ihl hl, ihr hr, hop, rfl⟩
  | not e ih =>
    cases h with
    | not he =>
      simp only [infer, Check.verdict_bind_eq_ok, Check.verdict_matchType_eq_ok]
      exact ⟨.bool, ih he, (), rfl, rfl⟩
  | letIn x b k ihb ihk =>
    cases h with
    | letIn hb hk =>
      simp only [infer, Check.verdict_bind_eq_ok]
      exact ⟨_, ihb hb, ihk hk⟩
  | ite c y n ihc ihy ihn =>
    cases h with
    | ite hc hy hn =>
      simp only [infer, Check.verdict_bind_eq_ok, Check.verdict_matchType_eq_ok]
      exact ⟨.bool, ihc hc, (), rfl, t, ihy hy, t, ihn hn, (), rfl, rfl⟩
  | call f args ih =>
    cases h with
    | call hd hlength hargs =>
      refine verdict_infer_call_eq_ok.mpr ⟨_, hd, hlength, fun p hp => ?_, rfl⟩
      exact ih p.2 (List.of_mem_zip hp).2 (hargs p hp)
  | concat parts ih =>
    cases h with
    | concat hparts =>
      simp only [infer, Check.verdict_bind_eq_ok, verdict_inferArgs_same_eq_ok]
      exact ⟨(), fun e he => ih e he (hparts e he), rfl⟩
  | print e ih =>
    cases h with
    | print he =>
      simp only [infer, Check.verdict_bind_eq_ok, Check.verdict_matchType_eq_ok]
      exact ⟨.string, ih he, (), rfl, rfl⟩
  | input =>
    cases h
    rfl
  | cast target e ih =>
    cases h with
    | cast _ he =>
      simp only [infer, Check.verdict_bind_eq_ok]
      exact ⟨_, ih he, (), rfl, rfl⟩

/-- An expression has one type at most. -/
theorem HasType.unique {u : Ty} (h : HasType table env e t) (h' : HasType table env e u) :
    t = u := by
  have hfound := infer_of_hasType h
  rw [infer_of_hasType h'] at hfound
  cases hfound
  rfl

instance : Decidable (HasType table env e t) :=
  decidable_of_iff ((infer table env e).verdict = .ok t) ⟨hasType_of_infer, infer_of_hasType⟩

/-- A binding hides the ones before it, in what follows it and not in what it binds. -/
example : HasType ∅ (Env.empty.bind "x" .int)
    (.letIn "x" (.binop .eq (.var "x") (.int 0)) (.not (.var "x"))) .bool := by decide

/-! ## Definitions and programs -/

/-- A definition is in order if its body has its result type. -/
theorem verdict_checkDefinition_eq_ok {d : Definition} :
    (checkDefinition table d).verdict = .ok () ↔
      HasType table (Env.empty.bindAll d.params) d.body d.result := by
  simp only [checkDefinition, Check.verdict_bind_eq_ok, Check.verdict_matchType_eq_ok]
  constructor
  · rintro ⟨_, -, u, hbody, rfl⟩
    exact hasType_of_infer hbody
  · intro h
    exact ⟨(), rfl, d.result, infer_of_hasType h, rfl⟩

theorem Program.infer_eq_ok_iff_bodies {p : Program} :
    p.infer.verdict = .ok t ↔
      (p.functions.map Definition.name).Nodup ∧
        (∀ d ∈ p.functions, HasType p.table (Env.empty.bindAll d.params) d.body d.result) ∧
        HasType p.table Env.empty p.main t := by
  simp only [infer_eq_ok_iff, verdict_checkDefinition_eq_ok]
  exact ⟨fun ⟨hnames, hdefs, hmain⟩ => ⟨hnames, hdefs, hasType_of_infer hmain⟩,
    fun ⟨hnames, hdefs, hmain⟩ => ⟨hnames, hdefs, infer_of_hasType hmain⟩⟩

/-! ## Main theorem -/

/-- **The checker accepts the declarative type system.**  It finds a type for an expression if and
only if the rules derive this type. -/
theorem infer_eq_ok_iff_hasType (table : FunctionTable) (env : Env Ty) (e : Expr) (t : Ty) :
    (infer table env e).verdict = .ok t ↔ HasType table env e t :=
  ⟨hasType_of_infer, infer_of_hasType⟩

end ExprLang
