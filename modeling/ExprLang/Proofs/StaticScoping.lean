import ExprLang.Proofs.Nodes
import ExprLang.Proofs.Scoping
import ExprLang.Typing.Infer

/-!
# What the checker looks at

The type of an expression depends on the types of its free variables and on the signatures of the
functions that it calls, and on nothing else.  Parameter names and bodies do not matter.

* `Definition.signature` — parameter types and result type.
* `Expr.SameSignature` — two tables give the function that a node calls one signature, or none.

Principal result: `infer_congr` — the check of an expression is the same, errors and notes included.
-/

set_option autoImplicit false

namespace ExprLang

def Definition.signature (d : Definition) : List Ty × Ty := (d.params.map Prod.snd, d.result)

/-- Nothing is asked of a node that is no call. -/
def Expr.SameSignature (table table' : FunctionTable) : Expr → Prop
  | .call f _ => table[f]?.map Definition.signature = table'[f]?.map Definition.signature
  | _ => True

theorem Expr.sameSignature_refl (table : FunctionTable) (e : Expr) :
    e.Each (SameSignature table table) := by
  intro n _
  cases n with
  | call f args => rfl
  | _ => trivial

/-- Expressions may be replaced by others of the same check. -/
theorem inferArgs_map {table table' : FunctionTable} {env env' : Env Ty} {es : List Expr}
    {f : Expr → Expr} (h : ∀ e ∈ es, infer table env e = infer table' env' (f e))
    (types : List Ty) : inferArgs table env types es = inferArgs table' env' types (es.map f) := by
  induction es generalizing types with
  | nil => cases types <;> rfl
  | cons e es ih =>
    rw [List.forall_mem_cons] at h
    cases types with
    | nil => rfl
    | cons t types => rw [List.map_cons, inferArgs, inferArgs, h.1, ih h.2]

theorem inferArgs_congr {table table' : FunctionTable} {env env' : Env Ty} {es : List Expr}
    (h : ∀ e ∈ es, infer table env e = infer table' env' e) (types : List Ty) :
    inferArgs table env types es = inferArgs table' env' types es := by
  rw [inferArgs_map (f := id) h, List.map_id]

/-- **The checker looks at free variables and signatures alone.** -/
theorem infer_congr {table table' : FunctionTable} {e : Expr} {env env' : Env Ty}
    (hsig : e.Each (Expr.SameSignature table table')) (henv : Env.AgreeOn e.freeVars env env') :
    infer table env e = infer table' env' e := by
  induction e using Expr.inductionOn generalizing env env' with
  | lit v => rfl
  | var x => rw [infer, infer, henv x (List.mem_singleton.mpr rfl)]
  | binop op l r ihl ihr =>
    obtain ⟨-, hparts⟩ := Expr.each_iff.mp hsig
    obtain ⟨hl, hr⟩ := Env.agreeOn_append.mp henv
    rw [infer, infer, ihl (hparts l (by simp)) hl, ihr (hparts r (by simp)) hr]
  | not e ih =>
    obtain ⟨-, hparts⟩ := Expr.each_iff.mp hsig
    rw [infer, infer, ih (hparts e (by simp)) henv]
  | letIn x b k ihb ihk =>
    obtain ⟨-, hparts⟩ := Expr.each_iff.mp hsig
    obtain ⟨hb, hk⟩ := Env.agreeOn_append.mp henv
    have hbody : ∀ t, infer table (env.bind x t) k = infer table' (env'.bind x t) k :=
      fun t => ihk (hparts k (by simp)) (hk.bind t)
    rw [infer, infer, ihb (hparts b (by simp)) hb]
    simp only [hbody]
  | ite c y n ihc ihy ihn =>
    obtain ⟨-, hparts⟩ := Expr.each_iff.mp hsig
    obtain ⟨hcy, hn⟩ := Env.agreeOn_append.mp henv
    obtain ⟨hc, hy⟩ := Env.agreeOn_append.mp hcy
    rw [infer, infer, ihc (hparts c (by simp)) hc, ihy (hparts y (by simp)) hy,
      ihn (hparts n (by simp)) hn]
  | call f args ih =>
    obtain ⟨hf, hparts⟩ := Expr.each_iff.mp hsig
    rw [Expr.SameSignature] at hf
    have hargs : ∀ a ∈ args, infer table env a = infer table' env' a :=
      fun a ha => ih a ha (hparts a ha) (agreeOn_freeVars_of_mem henv ha)
    rw [infer, infer]
    cases hd : table[f]? with
    | none =>
      rw [hd, Option.map_none, eq_comm, Option.map_eq_none_iff] at hf
      rw [hf]
      rfl
    | some d =>
      rw [hd, Option.map_some, eq_comm, Option.map_eq_some_iff] at hf
      obtain ⟨d', hd', hsame⟩ := hf
      obtain ⟨htypes, hresult⟩ := Prod.mk.inj hsame
      have hlen : d'.params.length = d.params.length := by
        simpa using congrArg List.length htypes
      rw [hd']
      simp only [Check.ofOption, pure_bind, hlen, htypes, hresult, inferArgs_congr hargs]
  | concat parts ih =>
    obtain ⟨-, hparts⟩ := Expr.each_iff.mp hsig
    have hargs : ∀ a ∈ parts, infer table env a = infer table' env' a :=
      fun a ha => ih a ha (hparts a ha) (agreeOn_freeVars_of_mem henv ha)
    rw [infer, infer, inferArgs_congr hargs]
  | print e ih =>
    obtain ⟨-, hparts⟩ := Expr.each_iff.mp hsig
    rw [infer, infer, ih (hparts e (by simp)) henv]
  | input => rfl
  | cast target e ih =>
    obtain ⟨-, hparts⟩ := Expr.each_iff.mp hsig
    rw [infer, infer, ih (hparts e (by simp)) henv]

end ExprLang
