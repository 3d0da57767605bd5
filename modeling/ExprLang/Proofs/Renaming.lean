import ExprLang.Proofs.ReachedNodes
import ExprLang.Proofs.StaticScoping

/-!
# Renaming of variables

A variable may get another name that does not occur in the expression: with its value, or its type,
under the new name the expression runs and checks as before.  Bindings of the old name in the
expression hide it on both sides, and what the new name was bound to outside cannot be seen.

* `Env.Renames` — two environments that differ in one name, bound under the old name in the first and
  under the new name in the second.
* `Definition.renameParam` — a parameter and its free occurrences in the body get another name.

Principal results: `eval_rename`, `infer_rename`; `eval_letIn_rename`, `infer_letIn_rename` — the name
in a binding is free to choose; `Env.Renames.bindAll` — and so is that of a parameter.
-/

set_option autoImplicit false

namespace ExprLang

/-! ## Names that occur -/

namespace Expr

variable {x : Name} {a e : Expr}

theorem Mentions.of_mem_children (h : a.Mentions x) (ha : a ∈ e.children) : e.Mentions x := by
  obtain ⟨n, hn, hx⟩ := h
  exact ⟨n, mem_nodes_of_mem_children ha hn, hx⟩

theorem ne_of_not_mentions_var {y : Name} (h : ¬ (var x).Mentions y) : x ≠ y := by
  rintro rfl
  exact h ⟨_, mem_nodes_self _, .inl rfl⟩

theorem ne_of_not_mentions_letIn {y : Name} {bound body : Expr}
    (h : ¬ (letIn x bound body).Mentions y) : x ≠ y := by
  rintro rfl
  exact h ⟨_, mem_nodes_self _, .inr ⟨bound, body, rfl⟩⟩

theorem eq_var_or_mem_freeVars_child (h : x ∈ e.freeVars) :
    e = .var x ∨ ∃ a ∈ e.children, x ∈ a.freeVars := by
  cases e with
  | lit v | input => cases h
  | var y => exact .inl (congrArg _ (List.mem_singleton.mp h).symm)
  | call f args | concat parts => exact .inr (mem_freeVarsAll.mp h)
  | letIn y bound body =>
    rcases mem_freeVars_letIn.mp h with h | ⟨h, -⟩
    · exact .inr ⟨bound, by simp, h⟩
    · exact .inr ⟨body, by simp, h⟩
  | binop _ _ _ | ite _ _ _ | not _ | print _ | cast _ _ =>
    right
    simpa [freeVars, or_assoc] using h

theorem mentions_of_mem_freeVars (h : x ∈ e.freeVars) : e.Mentions x := by
  induction e using inductionOnChildren with
  | node e ih =>
    rcases eq_var_or_mem_freeVars_child h with rfl | ⟨a, ha, hxa⟩
    · exact ⟨_, mem_nodes_self _, .inl rfl⟩
    · exact (ih a ha hxa).of_mem_children ha

end Expr

/-! ## Environments -/

namespace Env

variable {α : Type}

/-- What `x` is in the first environment `y` is in the second one. -/
structure Renames (x y : Name) (env env' : Env α) : Prop where
  renamed : ∃ a, env.find? x = some a ∧ env'.find? y = some a
  others {z : Name} : z ≠ x → z ≠ y → env.find? z = env'.find? z

variable {x y : Name} {env env' : Env α}

/-- The new name may be bound outside, for what it is bound to is hidden. -/
theorem renames_bind (x y : Name) (env : Env α) (a : α) :
    Renames x y (env.bind x a) (env.bind y a) where
  renamed := ⟨a, by rw [find?_bind, if_pos rfl], by rw [find?_bind, if_pos rfl]⟩
  others hx hy := by rw [find?_bind, find?_bind, if_neg hx, if_neg hy]

theorem Renames.bind (h : Renames x y env env') {z : Name} (hx : z ≠ x) (hy : z ≠ y) (a : α) :
    Renames x y (env.bind z a) (env'.bind z a) where
  renamed := by
    rw [find?_bind, find?_bind, if_neg hx.symm, if_neg hy.symm]
    exact h.renamed
  others hwx hwy := by rw [find?_bind, find?_bind, h.others hwx hwy]

/-- A binding of the old name hides it on both sides. -/
theorem Renames.agreeOn_bind (h : Renames x y env env') (a : α) {zs : List Name} (hy : y ∉ zs) :
    AgreeOn zs (env.bind x a) (env'.bind x a) := by
  intro z hz
  rw [find?_bind, find?_bind]
  split
  · rfl
  · rename_i hzx
    exact h.others hzx fun hzy => hy (hzy ▸ hz)

end Env

/-! ## Expressions -/

section Expressions

variable {x y : Name} {e : Expr}

/-- **Under a new name a variable evaluates as before.**  A binding of the old name ends the renaming,
and from there on both environments agree. -/
theorem eval_rename (table : FunctionTable) (n : Nat) {env env' : Env Value}
    (h : env.Renames x y env') (hy : ¬ e.Mentions y) :
    eval table n env e = eval table n env' (e.rename x y) := by
  induction n generalizing e env env' with
  | zero => rfl
  | succ n ih =>
    have hsub : ∀ a ∈ e.children, eval table n env a = eval table n env' (a.rename x y) :=
      fun a ha => ih h fun hm => hy (hm.of_mem_children ha)
    cases e with
    | lit v => rfl
    | var z =>
      have hzy : z ≠ y := Expr.ne_of_not_mentions_var hy
      rw [Expr.rename, eval, eval]
      split
      · rename_i hzx
        subst hzx
        obtain ⟨a, ha, ha'⟩ := h.renamed
        rw [ha, ha']
        rfl
      · rename_i hzx
        rw [h.others hzx hzy]
    | binop op left right =>
      rw [Expr.rename, eval, eval, hsub left (by simp), hsub right (by simp)]
    | not e => rw [Expr.rename, eval, eval, hsub e (by simp)]
    | letIn z bound body =>
      have hzy : z ≠ y := Expr.ne_of_not_mentions_letIn hy
      have hm : ¬ body.Mentions y := fun hm => hy (hm.of_mem_children (by simp))
      have hbody : ∀ v, eval table n (env.bind z v) body =
          eval table n (env'.bind z v) (if z = x then body else body.rename x y) := by
        intro v
        split
        · rename_i hzx
          subst hzx
          exact eval_congr table n
            (h.agreeOn_bind v fun hfree => hm (Expr.mentions_of_mem_freeVars hfree))
        · rename_i hzx
          exact ih (h.bind hzx hzy v) hm
      rw [Expr.rename, eval, eval, hsub bound (by simp)]
      simp only [hbody]
    | ite test yes no =>
      rw [Expr.rename, eval, eval, hsub test (by simp), hsub yes (by simp), hsub no (by simp)]
    | call f args =>
      have hargs : args.mapM (eval table n env) =
          (args.map (Expr.rename x y)).mapM (eval table n env') := by
        rw [List.mapM_map]
        exact mapM_congr_mem hsub
      rw [Expr.rename, Expr.renameAll_eq_map, eval, eval, List.length_map, hargs]
    | concat parts =>
      rw [Expr.rename, eval, eval, Expr.renameAll_eq_map, List.mapM_map]
      congr 1
      refine mapM_congr_mem fun a ha => ?_
      rw [hsub a ha]
      rfl
    | print e => rw [Expr.rename, eval, eval, hsub e (by simp)]
    | input => rfl
    | cast target e => rw [Expr.rename, eval, eval, hsub e (by simp)]

/-- **Under a new name a variable is checked as before.** -/
theorem infer_rename (table : FunctionTable) {env env' : Env Ty} (h : env.Renames x y env')
    (hy : ¬ e.Mentions y) : infer table env e = infer table env' (e.rename x y) := by
  induction e using Expr.inductionOnChildren generalizing env env' with
  | node e ih =>
    have hsub : ∀ a ∈ e.children, infer table env a = infer table env' (a.rename x y) :=
      fun a ha => ih a ha h fun hm => hy (hm.of_mem_children ha)
    cases e with
    | lit v => rfl
    | var z =>
      have hzy : z ≠ y := Expr.ne_of_not_mentions_var hy
      rw [Expr.rename, infer, infer]
      split
      · rename_i hzx
        subst hzx
        obtain ⟨a, ha, ha'⟩ := h.renamed
        rw [ha, ha']
        rfl
      · rename_i hzx
        rw [h.others hzx hzy]
    | binop op left right =>
      rw [Expr.rename, infer, infer, hsub left (by simp), hsub right (by simp)]
    | not e => rw [Expr.rename, infer, infer, hsub e (by simp)]
    | letIn z bound body =>
      have hzy : z ≠ y := Expr.ne_of_not_mentions_letIn hy
      have hm : ¬ body.Mentions y := fun hm => hy (hm.of_mem_children (by simp))
      have hbody : ∀ t, infer table (env.bind z t) body =
          infer table (env'.bind z t) (if z = x then body else body.rename x y) := by
        intro t
        split
        · rename_i hzx
          subst hzx
          exact infer_congr (Expr.sameSignature_refl table body)
            (h.agreeOn_bind t fun hfree => hm (Expr.mentions_of_mem_freeVars hfree))
        · rename_i hzx
          exact ih body (by simp) (h.bind hzx hzy t) hm
      rw [Expr.rename, infer, infer, hsub bound (by simp)]
      simp only [hbody]
    | ite test yes no =>
      rw [Expr.rename, infer, infer, hsub test (by simp), hsub yes (by simp), hsub no (by simp)]
    | call f args =>
      have hargs : ∀ types, inferArgs table env types args =
          inferArgs table env' types (args.map (Expr.rename x y)) := inferArgs_map hsub
      rw [Expr.rename, Expr.renameAll_eq_map, infer, infer, List.length_map]
      simp only [hargs]
    | concat parts =>
      have hparts : ∀ types, inferArgs table env types parts =
          inferArgs table env' types (parts.map (Expr.rename x y)) := inferArgs_map hsub
      rw [Expr.rename, Expr.renameAll_eq_map, infer, infer, hparts, List.map_map]
      rfl
    | print e => rw [Expr.rename, infer, infer, hsub e (by simp)]
    | input => rfl
    | cast target e => rw [Expr.rename, infer, infer, hsub e (by simp)]

/-! ## Bindings -/

/-- **The name in a binding is free to choose**, as long as it does not occur in the body. -/
theorem eval_letIn_rename (table : FunctionTable) (n : Nat) (env : Env Value) (bound : Expr)
    (hy : ¬ e.Mentions y) :
    eval table n env (.letIn x bound e) = eval table n env (.letIn y bound (e.rename x y)) := by
  cases n with
  | zero => rfl
  | succ n =>
    have hbody : ∀ v, eval table n (env.bind x v) e = eval table n (env.bind y v) (e.rename x y) :=
      fun v => eval_rename table n (Env.renames_bind x y env v) hy
    rw [eval, eval]
    simp only [hbody]

theorem infer_letIn_rename (table : FunctionTable) (env : Env Ty) (bound : Expr)
    (hy : ¬ e.Mentions y) :
    infer table env (.letIn x bound e) = infer table env (.letIn y bound (e.rename x y)) := by
  have hbody : ∀ t, infer table (env.bind x t) e = infer table (env.bind y t) (e.rename x y) :=
    fun t => infer_rename table (Env.renames_bind x y env t) hy
  rw [infer, infer]
  simp only [hbody]

end Expressions

/-! ## Parameters -/

/-- `y` in place of `x`. -/
def replaceName (x y z : Name) : Name := if z = x then y else z

/-- The free occurrences of `x` in the body are those of the parameter. -/
def Definition.renameParam (x y : Name) (d : Definition) : Definition :=
  { d with
    params := d.params.map (Prod.map (replaceName x y) id)
    body := d.body.rename x y }

section Parameters

variable {α : Type} {x y z : Name} {entries : List (Name × α)}

theorem replaceName_inj {w : Name} (hz : z ≠ y) (hw : w ≠ y) :
    replaceName x y z = replaceName x y w ↔ z = w := by
  unfold replaceName
  split <;> split <;> grind

/-- Where the new name was no key before, what is found under a name is found under its
replacement. -/
theorem lookup_map_replaceName (hy : y ∉ entries.map Prod.fst) (hz : z ≠ y) :
    (entries.map (Prod.map (replaceName x y) id)).lookup (replaceName x y z) =
      entries.lookup z := by
  induction entries with
  | nil => rfl
  | cons entry entries ih =>
    obtain ⟨w, a⟩ := entry
    rw [List.map_cons, List.mem_cons, not_or] at hy
    obtain ⟨hw, hrest⟩ := hy
    have hkey : (replaceName x y z == replaceName x y w) = (z == w) := by
      rw [Bool.eq_iff_iff, beq_iff_eq, beq_iff_eq]
      exact replaceName_inj hz (Ne.symm hw)
    rw [List.map_cons, Prod.map_apply, List.lookup_cons, List.lookup_cons, hkey, ih hrest]
    rfl

/-- **A parameter may get another name.** -/
theorem Env.Renames.bindAll (hx : x ∈ entries.map Prod.fst) (hy : y ∉ entries.map Prod.fst) :
    Env.Renames x y (Env.empty.bindAll entries)
      (Env.empty.bindAll (entries.map (Prod.map (replaceName x y) id))) := by
  have hxy : x ≠ y := fun h => hy (h ▸ hx)
  have hrev : y ∉ entries.reverse.map Prod.fst := by simpa using hy
  have hfind : ∀ z, z ≠ y → (Env.empty.bindAll entries).find? z =
      (Env.empty.bindAll (entries.map (Prod.map (replaceName x y) id))).find?
        (replaceName x y z) := by
    intro z hz
    rw [find?_bindAll, find?_bindAll, ← List.map_reverse, lookup_map_replaceName hrev hz]
    rfl
  refine ⟨?_, fun {z} hzx hzy => ?_⟩
  · have hbound : (Env.empty.bindAll entries).find? x ≠ none := by
      rw [find?_bindAll, find?_empty, Option.or_none]
      exact fun h => lookup_reverse_eq_none.mp h hx
    obtain ⟨a, ha⟩ := Option.ne_none_iff_exists'.mp hbound
    have hnew : replaceName x y x = y := if_pos rfl
    have ha' := hfind x hxy
    rw [hnew, ha] at ha'
    exact ⟨a, ha, ha'.symm⟩
  · have hsame : replaceName x y z = z := if_neg hzx
    rw [hfind z hzy, hsame]

end Parameters

end ExprLang
