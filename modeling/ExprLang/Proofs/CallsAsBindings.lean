import ExprLang.Proofs.Inference
import ExprLang.Proofs.Observation
import ExprLang.Proofs.StaticScoping

/-!
# Calls as nested bindings

A call evaluates its arguments in the caller's environment and then the body in an environment of
the parameters alone.  Nested bindings evaluate the same expressions in one growing environment.  The
two come to the same where no argument mentions a parameter that is bound before it and the body
mentions nothing but parameters.

* `Expr.letAll` — an expression within several bindings, the first one outermost.
* `evalLets` — bindings evaluated in turn and then a body, all on one budget.

Principal results: `evalLets_eq` — with no capture the bindings may be evaluated beforehand;
`call_eq_letAll` — the run of a call and that of the bindings look the same, and where the checker
accepts the call it accepts the bindings.
-/

set_option autoImplicit false

namespace ExprLang

/-- Binds each name around the entries behind it and the body. -/
def Expr.letAll (entries : List (Name × Expr)) (body : Expr) : Expr :=
  entries.foldr (fun entry rest => .letIn entry.1 entry.2 rest) body

/-- No name is free in the expression of a later entry. -/
def NoCapture (entries : List (Name × Expr)) : Prop :=
  entries.Pairwise fun earlier later => earlier.1 ∉ later.2.freeVars

instance (entries : List (Name × Expr)) : Decidable (NoCapture entries) :=
  inferInstanceAs (Decidable (List.Pairwise _ entries))

/-! ## Environments -/

namespace Env

variable {α : Type}

/-- Agreement is needed only on names that are not bound anew. -/
theorem AgreeOn.bindAll {xs : List Name} {entries : List (Name × α)} {env env' : Env α}
    (h : ∀ x ∈ xs, x ∉ entries.map Prod.fst → env.find? x = env'.find? x) :
    AgreeOn xs (env.bindAll entries) (env'.bindAll entries) := by
  intro x hx
  rw [find?_bindAll, find?_bindAll]
  cases hlast : entries.reverse.lookup x with
  | some a => rfl
  | none => exact h x hx (lookup_reverse_eq_none.mp hlast)

/-- A binding does not matter to an expression in which the name is not free. -/
theorem agreeOn_bind_of_notMem {x : Name} {xs : List Name} (hx : x ∉ xs) (env : Env α) (a : α) :
    AgreeOn xs (env.bind x a) env := by
  intro y hy
  rw [find?_bind, if_neg]
  rintro rfl
  exact hx hy

end Env

/-! ## Evaluation -/

/-- Each expression is evaluated in the environment of the bindings before it. -/
def evalLets (table : FunctionTable) (budget : Nat) (env : Env Value) :
    List (Name × Expr) → Expr → Run Value
  | [], body => eval table budget env body
  | (x, e) :: entries, body => do
    evalLets table budget (env.bind x (← eval table budget env e)) entries body

variable {table : FunctionTable}

/-- A nested binding spends budget on every level, which only makes its run finish less often. -/
theorem eval_letAll_le {m n : Nat} (hmn : m ≤ n) (entries : List (Name × Expr)) (body : Expr)
    (env : Env Value) :
    (eval table m env (.letAll entries body)).Le (evalLets table n env entries body) := by
  induction entries generalizing m env with
  | nil => exact eval_mono table hmn env body
  | cons entry entries ih =>
    cases m with
    | zero =>
      intro c r h
      cases h
    | succ m =>
      have hm : m ≤ n := by omega
      exact (eval_mono table hm env entry.2).bind fun v => ih hm _

/-- A level more for each binding is enough. -/
theorem evalLets_le (n : Nat) (entries : List (Name × Expr)) (body : Expr) (env : Env Value) :
    (evalLets table n env entries body).Le
      (eval table (n + entries.length) env (.letAll entries body)) := by
  induction entries generalizing env with
  | nil => exact .refl _
  | cons entry entries ih =>
    have hn : n ≤ n + entries.length := by omega
    exact (eval_mono table hn env entry.2).bind fun v => ih _

/-- **Without capture the bindings may be evaluated beforehand**, all in the outer environment. -/
theorem evalLets_eq {entries : List (Name × Expr)} (h : NoCapture entries) (n : Nat) (body : Expr)
    (env : Env Value) :
    evalLets table n env entries body = (do
      let values ← (entries.map Prod.snd).mapM (eval table n env)
      eval table n (env.bindAll ((entries.map Prod.fst).zip values)) body) := by
  induction entries generalizing env with
  | nil => simp [evalLets]
  | cons entry entries ih =>
    obtain ⟨x, e⟩ := entry
    obtain ⟨hx, hrest⟩ := List.pairwise_cons.mp h
    have hlater : ∀ v, (entries.map Prod.snd).mapM (eval table n (env.bind x v)) =
        (entries.map Prod.snd).mapM (eval table n env) := by
      intro v
      refine mapM_congr_mem fun a ha => ?_
      obtain ⟨later, hlater, rfl⟩ := List.mem_map.mp ha
      exact eval_congr table n (Env.agreeOn_bind_of_notMem (hx later hlater) env v)
    simp only [evalLets, ih hrest, hlater, List.map_cons, List.mapM_cons, bind_assoc, pure_bind,
      List.zip_cons_cons, Env.bindAll_cons]

theorem length_of_mapM {α β : Type} {f : α → Run β} {as : List α} {bs : List β} {c d : Console}
    (h : (as.mapM f).on c = some (.ok bs, d)) : bs.length = as.length := by
  have hany : (as.mapM f).Obeys .any fun bs => List.Forall₂ (fun _ _ => True) as bs :=
    .mapM (List.forall₂_same.mpr fun a _ => .any _)
  obtain ⟨-, hpairs⟩ := hany c (.ok bs) d h
  exact hpairs.length_eq.symm

section Call

variable {f : Name} {d : Definition} {args : List Expr}

/-- One level of budget pays for the call itself. -/
theorem seen_call (hd : table[f]? = some d)
    (hbody : ∀ x ∈ d.body.freeVars, x ∈ d.params.map Prod.fst)
    (hlen : args.length = d.params.length)
    (hargs : NoCapture ((d.params.map Prod.fst).zip args)) (n : Nat) (env : Env Value)
    (c : Console) :
    (eval table (n + 1) env (.call f args)).seen c =
      (evalLets table n env ((d.params.map Prod.fst).zip args) d.body).seen c := by
  have hfst : ((d.params.map Prod.fst).zip args).map Prod.fst = d.params.map Prod.fst :=
    List.map_fst_zip (by simp [hlen])
  have hsnd : ((d.params.map Prod.fst).zip args).map Prod.snd = args :=
    List.map_snd_zip (by simp [hlen])
  rw [evalLets_eq hargs, hfst, hsnd, eval, hd]
  simp only [Run.ofOption, Run.ensure, hlen, if_true, pure_bind]
  refine Run.seen_bind_congr fun values c' hvalues => ?_
  have hcount : values.length = args.length := length_of_mapM hvalues
  -- the body sees parameters alone, and these have their values in both environments
  have hagree : Env.AgreeOn d.body.freeVars (Env.empty.bindAll ((d.params.map Prod.fst).zip values))
      (env.bindAll ((d.params.map Prod.fst).zip values)) := by
    refine .bindAll fun x hx hnot => absurd (hbody x hx) ?_
    rwa [List.map_fst_zip (by simp [hlen, hcount])] at hnot
  rw [(eval_composed table n _ d.body).seen_record rfl, eval_congr table n hagree]

end Call

/-! ## Inference -/

/-- Bindings of expressions of the parameters' types leave the body its check. -/
theorem infer_letAll {params : List (Name × Ty)} {args : List Expr} {types : Env Ty}
    (hlen : args.length = params.length) (hcapture : NoCapture ((params.map Prod.fst).zip args))
    (hargs : ∀ p ∈ (params.map Prod.snd).zip args, (infer table types p.2).verdict = .ok p.1)
    (body : Expr) :
    (infer table types (.letAll ((params.map Prod.fst).zip args) body)).verdict =
      (infer table (types.bindAll params) body).verdict := by
  induction params generalizing args types with
  | nil => rfl
  | cons param params ih =>
    obtain ⟨x, t⟩ := param
    cases args with
    | nil => cases hlen
    | cons e args =>
      obtain ⟨hx, hrest⟩ := List.pairwise_cons.mp hcapture
      obtain ⟨he, hes⟩ := List.forall_mem_cons.mp hargs
      have htail : args.length = params.length := by simpa using hlen
      have hsnd : ((params.map Prod.fst).zip args).map Prod.snd = args :=
        List.map_snd_zip (by simp [htail])
      have hlater : ∀ p ∈ (params.map Prod.snd).zip args,
          (infer table (types.bind x t) p.2).verdict = .ok p.1 := by
        intro p hp
        have hmem : p.2 ∈ ((params.map Prod.fst).zip args).map Prod.snd := by
          rw [hsnd]
          exact (List.of_mem_zip hp).2
        obtain ⟨entry, hentry, heq⟩ := List.mem_map.mp hmem
        have hfree : x ∉ p.2.freeVars := heq ▸ hx entry hentry
        rw [infer_congr (Expr.sameSignature_refl table p.2)
          (Env.agreeOn_bind_of_notMem hfree types t)]
        exact hes p hp
      calc (infer table types (.letIn x e (.letAll ((params.map Prod.fst).zip args) body))).verdict
        _ = (infer table (types.bind x t)
              (.letAll ((params.map Prod.fst).zip args) body)).verdict := by
            rw [infer, Check.verdict_bind, he]
            rfl
        _ = (infer table ((types.bind x t).bindAll params) body).verdict := ih htail hrest hlater

/-! ## Main theorem -/

/-- **A call is its arguments bound in turn around the body.**  The body mentions parameters alone,
and no argument mentions an earlier parameter; names may repeat. -/
theorem call_eq_letAll {f : Name} {d : Definition} {args : List Expr} (hd : table[f]? = some d)
    (hbody : ∀ x ∈ d.body.freeVars, x ∈ d.params.map Prod.fst)
    (hlen : args.length = d.params.length)
    (hargs : NoCapture ((d.params.map Prod.fst).zip args)) :
    (∀ (env : Env Value) (c : Console) (ending : Ending),
      EndsIn table env (.call f args) c ending ↔
        EndsIn table env (.letAll ((d.params.map Prod.fst).zip args) d.body) c ending) ∧
    (table.Checked → ∀ (types : Env Ty) (t : Ty),
      (infer table types (.call f args)).verdict = .ok t →
      (infer table types (.letAll ((d.params.map Prod.fst).zip args) d.body)).verdict = .ok t) := by
  have hcall := seen_call hd hbody hlen hargs
  refine ⟨fun env c ending => ⟨?_, ?_⟩, ?_⟩
  · rintro ⟨n, hn⟩
    have hmore : (eval table (n + 1) env (.call f args)).seen c = some ending :=
      (eval_le_succ table n env _).seen hn
    rw [hcall n env c] at hmore
    exact ⟨_, (evalLets_le n _ _ env).seen hmore⟩
  · rintro ⟨n, hn⟩
    refine ⟨n + 1, ?_⟩
    rw [hcall n env c]
    exact (eval_letAll_le (Nat.le_refl n) _ _ env).seen hn
  · intro hF types t ht
    obtain ⟨d', hd', -, htypes, rfl⟩ := verdict_infer_call_eq_ok.mp ht
    obtain rfl : d = d' := Option.some.inj (hd.symm.trans hd')
    have hagree : Env.AgreeOn d.body.freeVars (types.bindAll d.params)
        (Env.empty.bindAll d.params) :=
      .bindAll fun x hx hnot => absurd (hbody x hx) hnot
    rw [infer_letAll hlen hargs htypes,
      infer_congr (Expr.sameSignature_refl table d.body) hagree]
    exact hF.infer_body hd

/-- A function whose last parameter hides its first one. -/
def joinHiding : Definition where
  name := "f"
  params := [("p", .string), ("q", .string), ("p", .string)]
  result := .string
  body := .concat [.var "p", .var "q"]

/-- Calls it with two lines of input and a variable of its own. -/
def joinLines : Program where
  functions := [joinHiding]
  main := .letIn "y" (.string "!") (.call "f" [.input, .var "y", .input])

theorem call_eq_letAll_joinHiding :
    joinLines.table["f"]? = some joinHiding ∧
    (∀ x ∈ joinHiding.body.freeVars, x ∈ joinHiding.params.map Prod.fst) ∧
    NoCapture [("p", .input), ("q", .var "y"), ("p", .input)] ∧
    joinLines.infer.verdict = .ok .string ∧
    EndsIn joinLines.table (Env.empty.bind "y" (.string "!"))
      (.letAll [("p", .input), ("q", .var "y"), ("p", .input)] joinHiding.body)
      (.faultless (Utf8.encode "a\nb\r\nc")) ⟨.ok (.string "b!"), [], Utf8.encode "c"⟩ ∧
    (infer joinLines.table (Env.empty.bind "y" .string)
      (.letAll [("p", .input), ("q", .var "y"), ("p", .input)] joinHiding.body)).verdict =
        .ok .string := by
  have hd : joinLines.table["f"]? = some joinHiding := rfl
  have hbody : ∀ x ∈ joinHiding.body.freeVars, x ∈ joinHiding.params.map Prod.fst := by decide
  have hargs : NoCapture [("p", .input), ("q", .var "y"), ("p", .input)] := by decide
  have hp : joinLines.infer.verdict = .ok .string := rfl
  have hF : joinLines.table.Checked := (Program.infer_eq_ok hp).2.1
  have hlen : [Expr.input, .var "y", .input].length = joinHiding.params.length := rfl
  obtain ⟨hruns, htypes⟩ := call_eq_letAll hd hbody hlen hargs
  refine ⟨hd, hbody, hargs, hp, (hruns _ _ _).mp ⟨9, rfl⟩, htypes hF _ _ rfl⟩

end ExprLang
