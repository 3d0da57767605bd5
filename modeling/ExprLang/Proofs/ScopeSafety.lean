import ExprLang.Expr.Scope
import ExprLang.Proofs.Declarations
import ExprLang.Proofs.ErrorSources
import ExprLang.Proofs.ReachedNodes

/-!
# Scope safety

Whether names are in order can be seen without types.  Where all variables are bound, all functions
defined and all calls of the right length, no run fails for a name, however ill typed the expression
is and whatever else a run may fail with.

* `RunError.isOfScope` — the errors that concern names and numbers of arguments.
* `Env.Binds` — an environment binds all names of a list.
* `FunctionTable.WellScoped` — the bodies that an expression can reach mention their parameters alone,
  and all calls that it can come to fit the table.

Principal results: `wellScoped_maintains` — evaluation keeps names in order, through bindings, hidden
names and calls; `no_scope_error`.
-/

set_option autoImplicit false

namespace ExprLang

def RunError.isOfScope : RunError → Bool
  | .unboundName _ | .undefinedFunction _ | .arityMismatch _ _ _ => true
  | _ => false

/-! ## Environments -/

namespace Env

variable {α : Type}

def Binds (env : Env α) (xs : List Name) : Prop := ∀ x ∈ xs, ∃ a, env.find? x = some a

/-- A binding provides for one of the names. -/
theorem Binds.bind {env : Env α} {x : Name} {xs : List Name}
    (h : ∀ y ∈ xs, y ≠ x → ∃ a, env.find? y = some a) (a : α) : (env.bind x a).Binds xs := by
  intro y hy
  rw [find?_bind]
  split
  · exact ⟨a, rfl⟩
  · rename_i hne
    exact h y hy hne

theorem Binds.bindAll {entries : List (Name × α)} {env : Env α} {xs : List Name}
    (h : ∀ y ∈ xs, y ∉ entries.map Prod.fst → ∃ a, env.find? y = some a) :
    (env.bindAll entries).Binds xs := by
  intro y hy
  rw [find?_bindAll]
  cases hlast : entries.reverse.lookup y with
  | some a => exact ⟨a, rfl⟩
  | none => exact h y hy (lookup_reverse_eq_none.mp hlast)

end Env

/-! ## Expressions -/

namespace Expr

theorem mem_freeVars_of_mem_operands {a e : Expr} {x : Name} (ha : a ∈ e.operands)
    (hx : x ∈ a.freeVars) : x ∈ e.freeVars := by
  cases e with
  | lit v | var y | input => cases ha
  | call f args | concat parts => exact mem_freeVarsAll.mpr ⟨a, ha, hx⟩
  | letIn y bound body =>
    obtain rfl := List.mem_singleton.mp ha
    exact mem_freeVars_letIn.mpr (.inl hx)
  | binop _ _ _ | ite _ _ _ | not _ | print _ | cast _ _ =>
    simp only [operands, children, List.mem_cons, List.not_mem_nil, or_false] at ha
    simp only [freeVars, List.mem_append]
    rcases ha with rfl | rfl | rfl <;> simp [hx]

/-- A call names a function of the table and gives it as many arguments as it has parameters. -/
def CallFits (table : FunctionTable) : Expr → Prop
  | .call f args => ∃ d ∈ table[f]?, args.length = d.params.length
  | _ => True

instance (table : FunctionTable) : DecidablePred (CallFits table)
  | .call f args => inferInstanceAs (Decidable (∃ d ∈ table[f]?, args.length = d.params.length))
  | .lit _ | .var _ | .binop _ _ _ | .not _ | .letIn _ _ _ | .ite _ _ _ | .concat _ | .print _
  | .input | .cast _ _ => .isTrue trivial

end Expr

namespace FunctionTable

/-- Names are in order wherever a run of the expression may come. -/
structure WellScoped (table : FunctionTable) (e : Expr) : Prop where
  parameters {f : Name} {d : Definition} : table.Reachable e f → table[f]? = some d →
    ∀ x ∈ d.body.freeVars, x ∈ d.params.map Prod.fst
  calls : ∀ n ∈ table.reachedNodes e, n.CallFits table

variable {table : FunctionTable} {e : Expr}

theorem WellScoped.of_mem_children (h : table.WellScoped e) {a : Expr} (ha : a ∈ e.children) :
    table.WellScoped a where
  parameters hf := h.parameters (hf.of_mem_children ha)
  calls n hn := h.calls n (reachedNodes_of_mem_children ha hn)

theorem WellScoped.of_callee (h : table.WellScoped e) {f : Name} {d : Definition}
    (hf : table.Reachable e f) (hd : table[f]? = some d) : table.WellScoped d.body where
  parameters hg := h.parameters (hf.trans hd hg)
  calls n hn := h.calls n (reachedNodes_of_callee hf hd hn)

/-- Definitions that are all in order serve every expression that calls them as it should. -/
theorem wellScoped_ofDefinitions {defs : List Definition}
    (hparams : ∀ d ∈ defs, ∀ x ∈ d.body.freeVars, x ∈ d.params.map Prod.fst)
    (hcalls : ∀ d ∈ defs, d.body.Each (·.CallFits (ofDefinitions defs)))
    (he : e.Each (·.CallFits (ofDefinitions defs))) : (ofDefinitions defs).WellScoped e where
  parameters _ hd := hparams _ (mem_of_getElem?_ofDefinitions hd)
  calls := forall_reachedNodes_ofDefinitions he hcalls

end FunctionTable

/-! ## Main theorem -/

/-- **Evaluation keeps names in order.**  A body starts with its parameters bound, for it is entered
with a value for each of them. -/
theorem wellScoped_maintains (table : FunctionTable) :
    Maintains table (.ofFault (·.isOfScope = false))
      (fun env e => table.WellScoped e ∧ env.Binds e.freeVars) where
  operand := by
    rintro env a e ⟨hcode, henv⟩ ha
    refine ⟨hcode.of_mem_children (Expr.mem_children_of_mem_operands ha), fun x hx => ?_⟩
    exact henv x (Expr.mem_freeVars_of_mem_operands ha hx)
  body := by
    rintro env x bound body ⟨hcode, henv⟩ v
    refine ⟨hcode.of_mem_children (by simp), .bind (fun y hy hne => ?_) v⟩
    exact henv y (Expr.mem_freeVars_letIn.mpr (.inr ⟨hy, hne⟩))
  callee := by
    rintro env f args d values ⟨hcode, -⟩ hd hlen
    have hf := FunctionTable.reachable_call table f args
    refine ⟨hcode.of_callee hf hd, .bindAll fun x hx hnot => ?_⟩
    rw [List.map_fst_zip (by simp [hlen])] at hnot
    exact absurd (hcode.parameters hf hd x hx) hnot
  raises := by
    rintro env e err ⟨hcode, henv⟩ hraises
    have hfits := hcode.calls e (FunctionTable.mem_reachedNodes_self table e)
    cases hraises with
    | @unbound x hx =>
      obtain ⟨v, hv⟩ := henv x (List.mem_singleton.mpr rfl)
      rw [hx] at hv
      cases hv
    | undefined hnone =>
      obtain ⟨d, hd, -⟩ := hfits
      rw [hnone] at hd
      cases hd
    | arity hd hne =>
      obtain ⟨d', hd', hlen⟩ := hfits
      obtain rfl := Option.some.inj (hd.symm.trans hd')
      exact absurd hlen.symm hne
    | applied herr => cases herr <;> rfl
    | _ => rfl
  notes _ _ := trivial
  reads _ _ := trivial
  writes _ _ _ := trivial

/-- **Well-scoped expressions never hit a scope error, however ill typed they are.**  Their variables
are bound, the bodies that they can reach mention parameters alone, and all calls fit the table. -/
theorem no_scope_error {table : FunctionTable} {env : Env Value} {e : Expr}
    (henv : ∀ x ∈ e.freeVars, ∃ v, env.find? x = some v) (hcode : table.WellScoped e)
    {budget : Nat} {c d : Console} {r : Except RunError Value}
    (hr : (eval table budget env e).on c = some (r, d)) :
    (∀ x, r ≠ .error (.unboundName x)) ∧ (∀ f, r ≠ .error (.undefinedFunction f)) ∧
      ∀ f expected actual, r ≠ .error (.arityMismatch f expected actual) := by
  obtain ⟨-, hends⟩ := obeys_of_maintains (wellScoped_maintains table) budget ⟨hcode, henv⟩ c r d hr
  refine ⟨?_, ?_, ?_⟩
  · rintro x rfl
    cases hends
  · rintro f rfl
    cases hends
  · rintro f expected actual rfl
    cases hends

/-- Its parameters have one name and are never given what they are declared to be, and when it has
counted down it adds a text to a number. -/
def illTypedDown : Definition where
  name := "down"
  params := [("n", .string), ("n", .bool)]
  result := .unit
  body :=
    .ite (.binop .eq (.var "n") (.int 0)) (.binop .add (.var "n") (.string "!"))
      (.letIn "n" (.binop .sub (.var "n") (.int 1)) (.call "down" [.int 5, .var "n"]))

theorem no_scope_error_illTypedDown :
    (∀ x ∈ (Expr.call "down" [.var "x", .var "x"]).freeVars,
      ∃ v, (Env.empty.bind "x" (Value.int 2)).find? x = some v) ∧
    (FunctionTable.ofDefinitions [illTypedDown]).WellScoped (.call "down" [.var "x", .var "x"]) ∧
    (checkDefinition (.ofDefinitions [illTypedDown]) illTypedDown).verdict =
      .error (.typeMismatch .bool .int) ∧
    ∃ d, (eval (.ofDefinitions [illTypedDown]) 12 (Env.empty.bind "x" (.int 2))
        (.call "down" [.var "x", .var "x"])).on (.faultless []) =
          some (.error (.typeError .int (.string "!")), d) ∧
      (∀ x, (.error (.typeError .int (.string "!")) : Except RunError Value) ≠
        .error (.unboundName x)) ∧
      (∀ f, (.error (.typeError .int (.string "!")) : Except RunError Value) ≠
        .error (.undefinedFunction f)) ∧
      ∀ f expected actual, (.error (.typeError .int (.string "!")) : Except RunError Value) ≠
        .error (.arityMismatch f expected actual) := by
  have henv : ∀ x ∈ (Expr.call "down" [.var "x", .var "x"]).freeVars,
      ∃ v, (Env.empty.bind "x" (Value.int 2)).find? x = some v := by
    intro x hx
    obtain rfl : x = "x" := by simpa [Expr.freeVars, Expr.freeVarsAll] using hx
    exact ⟨_, rfl⟩
  have hcode : (FunctionTable.ofDefinitions [illTypedDown]).WellScoped
      (.call "down" [.var "x", .var "x"]) :=
    FunctionTable.wellScoped_ofDefinitions (by decide) (by decide) (by decide)
  have hrun : ∃ d, (eval (.ofDefinitions [illTypedDown]) 12 (Env.empty.bind "x" (.int 2))
      (.call "down" [.var "x", .var "x"])).on (.faultless []) =
        some (.error (.typeError .int (.string "!")), d) := ⟨_, rfl⟩
  obtain ⟨d, hd⟩ := hrun
  exact ⟨henv, hcode, rfl, d, hd, no_scope_error henv hcode hd⟩

end ExprLang
