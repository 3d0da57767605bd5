import ExprLang.Typing.Infer
import ExprLang.Typing.Rules

/-!
# Accepted expressions and programs

What it means that a check succeeds.

* `Check.verdict_bind_eq_ok`, `Check.verdict_matchType_eq_ok` — how success splits into parts.
* `BinOp.Accepts` — the operand types of an operator.
* `FunctionTable.Checked` — every definition of a table passes its check against the table.

Principal results: `hasType_of_infer` — the type that is found is derivable from the rules;
`declare_eq_ok` — a list of definitions that can be declared gives the same table to checker and
evaluator; `Program.infer_eq_ok` — what an accepted program consists of.
-/

set_option autoImplicit false

namespace ExprLang

/-! ## Success of a check -/

namespace Check

variable {α β : Type}

theorem verdict_bind_eq_ok {m : Check α} {k : α → Check β} {b : β} :
    (m >>= k).verdict = .ok b ↔ ∃ a, m.verdict = .ok a ∧ (k a).verdict = .ok b := by
  rw [verdict_bind]
  cases m.verdict with
  | ok a =>
    constructor
    · intro h
      exact ⟨a, rfl, h⟩
    · rintro ⟨a', ha, h⟩
      cases ha
      exact h
  | error e =>
    constructor
    · intro h
      cases h
    · rintro ⟨a', ha, -⟩
      cases ha

theorem verdict_pure_eq_ok {a b : α} : (pure a : Check α).verdict = .ok b ↔ a = b := by
  simp

theorem verdict_ofOption_eq_ok {a? : Option α} {e : TypingError} {a : α} :
    (ofOption a? e).verdict = .ok a ↔ a? = some a := by
  cases a? <;> simp

theorem verdict_ensure_eq_ok {p : Prop} [Decidable p] {e : TypingError} {u : Unit} :
    (ensure p e).verdict = .ok u ↔ p := by
  rw [verdict_ensure]
  split <;> simp_all

theorem verdict_matchType_eq_ok {expected actual : Ty} {u : Unit} :
    (matchType expected actual).verdict = .ok u ↔ expected = actual :=
  verdict_ensure_eq_ok

theorem verdict_matchType_both {expected t u : Ty} {x : Unit} :
    (do matchType expected t; matchType expected u : Check Unit).verdict = .ok x ↔
      t = expected ∧ u = expected := by
  rw [verdict_bind_eq_ok]
  constructor
  · rintro ⟨_, ht, hu⟩
    exact ⟨(verdict_matchType_eq_ok.mp ht).symm, (verdict_matchType_eq_ok.mp hu).symm⟩
  · rintro ⟨rfl, rfl⟩
    exact ⟨(), verdict_matchType_eq_ok.mpr rfl, verdict_matchType_eq_ok.mpr rfl⟩

theorem verdict_forM_eq_ok {f : α → Check Unit} {as : List α} {u : Unit} :
    (as.forM f).verdict = .ok u ↔ ∀ a ∈ as, (f a).verdict = .ok () := by
  induction as with
  | nil => simp
  | cons a as ih =>
    rw [List.forM, verdict_bind_eq_ok, List.forall_mem_cons]
    constructor
    · rintro ⟨_, ha, has⟩
      exact ⟨ha, ih.mp has⟩
    · rintro ⟨ha, has⟩
      exact ⟨(), ha, ih.mpr has⟩

end Check

/-! ## Operators -/

/-- The operand types that an operator takes. -/
def BinOp.Accepts (op : BinOp) (t u : Ty) : Prop :=
  match op with
  | .add | .sub | .mul | .div | .mod | .gt | .lt => t = .int ∧ u = .int
  | .and | .or => t = .bool ∧ u = .bool
  | .eq => t = u

theorem verdict_matchOperands_eq_ok {op : BinOp} {t u : Ty} {x : Unit} :
    (matchOperands op t u).verdict = .ok x ↔ op.Accepts t u := by
  cases op with
  | eq => exact Check.verdict_matchType_eq_ok
  | _ => exact Check.verdict_matchType_both

theorem hasType_binop {table : FunctionTable} {env : Env Ty} {op : BinOp} {left right : Expr}
    {t : Ty} : HasType table env (.binop op left right) t ↔
      ∃ u w, HasType table env left u ∧ HasType table env right w ∧ op.Accepts u w ∧
        t = op.resultType := by
  constructor
  · intro h
    cases h with
    | arithmetic hop hl hr =>
      refine ⟨_, _, hl, hr, ?_⟩
      simp only [List.mem_cons, List.not_mem_nil, or_false] at hop
      rcases hop with rfl | rfl | rfl | rfl | rfl <;> exact ⟨⟨rfl, rfl⟩, rfl⟩
    | comparison hop hl hr =>
      refine ⟨_, _, hl, hr, ?_⟩
      simp only [List.mem_cons, List.not_mem_nil, or_false] at hop
      rcases hop with rfl | rfl <;> exact ⟨⟨rfl, rfl⟩, rfl⟩
    | equality hl hr => exact ⟨_, _, hl, hr, rfl, rfl⟩
    | connective hop hl hr =>
      refine ⟨_, _, hl, hr, ?_⟩
      simp only [List.mem_cons, List.not_mem_nil, or_false] at hop
      rcases hop with rfl | rfl <;> exact ⟨⟨rfl, rfl⟩, rfl⟩
  · rintro ⟨u, w, hl, hr, hop, rfl⟩
    cases op with
    | eq =>
      cases hop
      exact .equality hl hr
    | gt | lt =>
      obtain ⟨rfl, rfl⟩ := hop
      exact .comparison (by simp) hl hr
    | and | or =>
      obtain ⟨rfl, rfl⟩ := hop
      exact .connective (by simp) hl hr
    | _ =>
      obtain ⟨rfl, rfl⟩ := hop
      exact .arithmetic (by simp) hl hr

/-! ## Expressions -/

theorem verdict_inferArgs_eq_ok {table : FunctionTable} {env : Env Ty} {types : List Ty}
    {es : List Expr} {u : Unit} : (inferArgs table env types es).verdict = .ok u ↔
      ∀ p ∈ types.zip es, (infer table env p.2).verdict = .ok p.1 := by
  induction types generalizing es with
  | nil => simp [inferArgs]
  | cons t types ih =>
    cases es with
    | nil => simp [inferArgs]
    | cons e es =>
      simp only [inferArgs, Check.verdict_bind_eq_ok, Check.verdict_matchType_eq_ok, ih,
        List.zip_cons_cons, List.forall_mem_cons]
      constructor
      · rintro ⟨t', he, -, rfl, hes⟩
        exact ⟨he, hes⟩
      · rintro ⟨he, hes⟩
        exact ⟨t, he, (), rfl, hes⟩

/-- One type is wanted of all. -/
theorem verdict_inferArgs_same_eq_ok {table : FunctionTable} {env : Env Ty} {t : Ty}
    {es : List Expr} {u : Unit} : (inferArgs table env (es.map fun _ => t) es).verdict = .ok u ↔
      ∀ e ∈ es, (infer table env e).verdict = .ok t := by
  rw [verdict_inferArgs_eq_ok]
  induction es with
  | nil => simp
  | cons e es ih => rw [List.map_cons, List.zip_cons_cons, List.forall_mem_cons, ih,
      List.forall_mem_cons]

theorem verdict_infer_call_eq_ok {table : FunctionTable} {env : Env Ty} {f : Name}
    {args : List Expr} {t : Ty} : (infer table env (.call f args)).verdict = .ok t ↔
      ∃ d, table[f]? = some d ∧ d.params.length = args.length ∧
        (∀ p ∈ (d.params.map Prod.snd).zip args, (infer table env p.2).verdict = .ok p.1) ∧
        d.result = t := by
  simp only [infer, Check.verdict_bind_eq_ok, Check.verdict_ofOption_eq_ok,
    Check.verdict_ensure_eq_ok, verdict_inferArgs_eq_ok, Check.verdict_pure_eq_ok, exists_const]

/-- **The type that is found is derivable.** -/
theorem hasType_of_infer {table : FunctionTable} {env : Env Ty} {e : Expr} {t : Ty}
    (h : (infer table env e).verdict = .ok t) : HasType table env e t := by
  induction e using Expr.inductionOn generalizing env t with
  | lit v =>
    cases h
    exact .lit v
  | var x => exact .var (Check.verdict_ofOption_eq_ok.mp h)
  | binop op l r ihl ihr =>
    simp only [infer, Check.verdict_bind_eq_ok, verdict_matchOperands_eq_ok] at h
    obtain ⟨u, hl, w, hr, _, hop, h⟩ := h
    cases h
    exact hasType_binop.mpr ⟨u, w, ihl hl, ihr hr, hop, rfl⟩
  | not e ih =>
    simp only [infer, Check.verdict_bind_eq_ok, Check.verdict_matchType_eq_ok] at h
    obtain ⟨_, he, _, rfl, h⟩ := h
    cases h
    exact .not (ih he)
  | letIn x b k ihb ihk =>
    simp only [infer, Check.verdict_bind_eq_ok] at h
    obtain ⟨u, hb, hk⟩ := h
    exact .letIn (ihb hb) (ihk hk)
  | ite c y n ihc ihy ihn =>
    simp only [infer, Check.verdict_bind_eq_ok, Check.verdict_matchType_eq_ok,
      Check.verdict_pure_eq_ok] at h
    obtain ⟨_, hc, _, rfl, u, hy, _, hn, _, rfl, rfl⟩ := h
    exact .ite (ihc hc) (ihy hy) (ihn hn)
  | call f args ih =>
    obtain ⟨d, hd, hlen, hargs, rfl⟩ := verdict_infer_call_eq_ok.mp h
    exact .call hd hlen fun p hp => ih p.2 (List.of_mem_zip hp).2 (hargs p hp)
  | concat parts ih =>
    simp only [infer, Check.verdict_bind_eq_ok, verdict_inferArgs_same_eq_ok] at h
    obtain ⟨_, hparts, h⟩ := h
    cases h
    exact .concat fun e he => ih e he (hparts e he)
  | print e ih =>
    simp only [infer, Check.verdict_bind_eq_ok, Check.verdict_matchType_eq_ok] at h
    obtain ⟨_, he, _, rfl, h⟩ := h
    cases h
    exact .print (ih he)
  | input =>
    cases h
    exact .input
  | cast target e ih =>
    simp only [infer, Check.verdict_bind_eq_ok] at h
    obtain ⟨u, he, _, _, h⟩ := h
    cases h
    exact .cast target (ih he)

/-! ## Tables and programs -/

/-- Every definition, the last of its name, passes its check. -/
def FunctionTable.Checked (table : FunctionTable) : Prop :=
  ∀ (f : Name) (d : Definition), table[f]? = some d → (checkDefinition table d).verdict = .ok ()

theorem FunctionTable.Checked.infer_body {table : FunctionTable} (h : table.Checked) {f : Name}
    {d : Definition} (hd : table[f]? = some d) :
    (infer table (Env.empty.bindAll d.params) d.body).verdict = .ok d.result := by
  have hc := h f d hd
  unfold checkDefinition at hc
  obtain ⟨_, -, hc⟩ := Check.verdict_bind_eq_ok.mp hc
  obtain ⟨t, hbody, hc⟩ := Check.verdict_bind_eq_ok.mp hc
  cases Check.verdict_matchType_eq_ok.mp hc
  exact hbody

theorem FunctionTable.Checked.hasType {table : FunctionTable} (h : table.Checked) {f : Name}
    {d : Definition} (hd : table[f]? = some d) :
    HasType table (Env.empty.bindAll d.params) d.body d.result :=
  hasType_of_infer (h.infer_body hd)

theorem foldlM_declareNext {defs : List Definition} {table table' : FunctionTable}
    (h : defs.foldlM declareNext table = .ok table') :
    table' = defs.foldl (fun table d => table.insert d.name d) table := by
  induction defs generalizing table with
  | nil =>
    cases h
    rfl
  | cons d defs ih =>
    rw [List.foldlM_cons] at h
    unfold declareNext at h
    split at h
    · cases h
    · exact ih h

/-- **Checker and evaluator see one table.** -/
theorem declare_eq_ok {defs : List Definition} {table : FunctionTable}
    (h : declare defs = .ok table) : table = .ofDefinitions defs :=
  foldlM_declareNext h

/-- **An accepted program** has a table whose definitions are all in order, and a main expression
of its type. -/
theorem Program.infer_eq_ok {p : Program} {t : Ty} (h : p.infer.verdict = .ok t) :
    declare p.functions = .ok p.table ∧ p.table.Checked ∧
      (ExprLang.infer p.table Env.empty p.main).verdict = .ok t := by
  unfold Program.infer at h
  obtain ⟨table, htable, h⟩ := Check.verdict_bind_eq_ok.mp h
  obtain ⟨_, hdefs, h⟩ := Check.verdict_bind_eq_ok.mp h
  obtain ⟨u, hmain, h⟩ := Check.verdict_bind_eq_ok.mp h
  cases h
  rw [Check.verdict_ofExcept] at htable
  obtain rfl : table = p.table := declare_eq_ok htable
  refine ⟨htable, fun f d hd => ?_, hmain⟩
  exact Check.verdict_forM_eq_ok.mp hdefs d (FunctionTable.mem_of_getElem?_ofDefinitions hd)

end ExprLang
