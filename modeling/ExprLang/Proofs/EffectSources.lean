import ExprLang.Proofs.ErrorSources
import ExprLang.Proofs.Observation
import ExprLang.Proofs.ReachedNodes

/-!
# Where effects come from

What a run does to its streams, and how it can fail, can be read off the code that it can reach: only
a node that prints writes, only a node that asks for a line reads, and each error belongs to a kind of
node.  Code that does neither computes; it ends in the same way whatever the streams are.

* `Event.HasSource` — an event uses a stream only if a node of the code does.
* `RunError.ComesFrom` — the nodes that an error belongs to, by their kind and by the name or type
  that the error carries.
* `codeConduct` — streams are used, and errors raised, by nodes of the code alone.

Principal results: `reachedNodes_maintains` — evaluation does not leave the code that it can reach;
`Composed.on_of_quiet` — a run that used no stream takes the same course on any console;
`effects_have_sources`.
-/

set_option autoImplicit false

namespace ExprLang

variable {α : Type}

/-! ## Runs that use no stream -/

/-- A step that notes an event shows nothing of the streams; the others leave a trace. -/
theorem Console.Step.eq_of_quiet {s : Console → Except RunError α × Console} (hs : Step s)
    {c : Console} (hquiet : c.Continues (·.isTransfer = false) (s c).2) (c' : Console) :
    (s c').1 = (s c).1 := by
  cases hs with
  | note _ => rfl
  | readLine => exact absurd (hquiet.of_events_eq_cons rfl) (by simp [Event.isTransfer])
  | writeLine s => exact absurd (hquiet.of_events_eq_cons rfl) (by simp [Event.isTransfer])

theorem Run.Composed.continues {m : Run α} (hm : m.Composed) {c d : Console}
    {r : Except RunError α} (h : m.on c = some (r, d)) : c.Continues (fun _ => True) d := by
  have hobeys : m.Obeys (.ofEvents (fun _ => True) fun _ => True) fun _ => True := by
    refine hm.obeys (fun hs c => ?_) fun _ => trivial
    cases hs <;> exact .of_cons rfl trivial
  exact (hobeys c r d h).1

/-- **A run that used no stream does not depend on the streams.** -/
theorem Run.Composed.on_of_quiet {m : Run α} (hm : m.Composed) {c d : Console}
    {r : Except RunError α} (h : m.on c = some (r, d))
    (hquiet : c.Continues (·.isTransfer = false) d) (c' : Console) :
    ∃ d', m.on c' = some (r, d') := by
  induction hm generalizing c d c' with
  | unfinished => cases h
  | ofExcept _ =>
    cases h
    exact ⟨c', rfl⟩
  | @step _ s hs =>
    obtain ⟨rfl, rfl⟩ := Prod.ext_iff.mp (Option.some.inj h)
    have hsame : (s c').1 = (s c).1 := hs.eq_of_quiet hquiet c'
    exact ⟨(s c').2, by rw [← hsame]; rfl⟩
  | bind hm hk ihm ihk =>
    rcases run_bind_eq_some.mp h with ⟨e, hfirst, rfl⟩ | ⟨a, c₁, hfirst, hrest⟩
    · obtain ⟨d', hd'⟩ := ihm hfirst hquiet c'
      exact ⟨d', run_bind_eq_some.mpr (.inl ⟨e, hd', rfl⟩)⟩
    · obtain ⟨hquiet₁, hquiet₂⟩ := hquiet.split (hm.continues hfirst) ((hk a).continues hrest)
      obtain ⟨c₁', hc₁'⟩ := ihm hfirst hquiet₁ c'
      obtain ⟨d', hd'⟩ := ihk a hrest hquiet₂ c₁'
      exact ⟨d', run_bind_eq_some.mpr (.inr ⟨a, c₁', hc₁', hd'⟩)⟩

/-! ## Sources -/

/-- A stream is used only where the code has a node that uses it. -/
def Event.HasSource (code : Set Expr) : Event → Prop
  | .reading _ => .input ∈ code
  | .writing _ => ∃ e, .print e ∈ code
  | .calling _ _ | .applying _ _ _ | .casting _ _ => True

theorem Event.HasSource.written_eq_nil {code : Set Expr} (hprint : ∀ e, .print e ∉ code) {ev : Event}
    (h : ev.HasSource code) : ev.written = [] := by
  cases ev with
  | writing bytes =>
    obtain ⟨e, he⟩ := h
    exact absurd he (hprint e)
  | _ => rfl

theorem Event.HasSource.not_isTransfer {code : Set Expr} (hprint : ∀ e, .print e ∉ code)
    (hinput : .input ∉ code) {ev : Event} (h : ev.HasSource code) : ev.isTransfer = false := by
  cases ev with
  | writing bytes =>
    obtain ⟨e, he⟩ := h
    exact absurd he (hprint e)
  | reading answer => exact absurd h hinput
  | _ => rfl

/-- The kinds of nodes that an error belongs to.  A failed cast shows its target, and an error that
names a variable or a function is one of a node of this name. -/
def RunError.ComesFrom : RunError → Expr → Prop
  | .typeError _ _, .binop _ _ _ => True
  | .typeError expected _, .not _ | .typeError expected _, .ite _ _ _ => expected = .bool
  | .typeError expected _, .concat _ | .typeError expected _, .print _ => expected = .string
  | .divisionByZero, .binop op _ _ => op = .div
  | .moduloByZero, .binop op _ _ => op = .mod
  | .unboundName x, .var y => y = x
  | .undefinedFunction f, .call g _ => g = f
  | .arityMismatch f _ _, .call g _ => g = f
  | .castFailure _ target, .cast target' _ => target' = target
  | .endOfInput, .input => True
  | .channel fault, .input => fault = .invalidText
  | .channel fault, .print _ => fault ≠ .invalidText
  | _, _ => False

theorem Expr.Raises.comesFrom {table : FunctionTable} {env : Env Value} {n : Expr} {err : RunError}
    (h : n.Raises table env err) : err.ComesFrom n := by
  cases h with
  | applied herr => cases herr <;> trivial
  | output hfault => exact hfault
  | _ => trivial

/-! ## The code that a run can reach -/

/-- `d` comes after `c` in a run of this code. -/
structure Console.ChangedBy (code : Set Expr) (c d : Console) : Prop where
  unread : .input ∉ code → d.unread = c.unread
  events : c.Continues (Event.HasSource code) d

/-- Only nodes of the code use streams and fail. -/
def codeConduct (code : Set Expr) : Conduct where
  step := Console.ChangedBy code
  fault err := ∃ n ∈ code, err.ComesFrom n
  refl c := ⟨fun _ => rfl, .refl _ c⟩
  trans h h' := ⟨fun hinput => (h'.unread hinput).trans (h.unread hinput), h.events.trans h'.events⟩

/-- **Evaluation does not leave the code that it can reach.** -/
theorem reachedNodes_maintains (table : FunctionTable) (code : Set Expr) :
    Maintains table (codeConduct code) (fun _ e => table.reachedNodes e ⊆ code) where
  operand h ha _ hn :=
    h (FunctionTable.reachedNodes_of_mem_children (Expr.mem_children_of_mem_operands ha) hn)
  body h _ _ hn := h (FunctionTable.reachedNodes_of_mem_children (by simp) hn)
  callee h hd _ _ hn :=
    h (FunctionTable.reachedNodes_of_callee (FunctionTable.reachable_call table _ _) hd hn)
  raises h hraises := ⟨_, h (FunctionTable.mem_reachedNodes_self table _), hraises.comesFrom⟩
  notes {ev} hev c := by
    refine ⟨fun _ => rfl, .of_cons rfl ?_⟩
    cases ev with
    | reading _ | writing _ => cases hev
    | _ => trivial
  reads h c := by
    have hinput : .input ∈ code := h (FunctionTable.mem_reachedNodes_self table _)
    exact ⟨fun hnot => absurd hinput hnot, .of_cons rfl hinput⟩
  writes h c s := by
    have hprint : .print _ ∈ code := h (FunctionTable.mem_reachedNodes_self table _)
    exact ⟨fun _ => rfl, .of_cons rfl ⟨_, hprint⟩⟩

theorem eval_obeys_codeConduct (table : FunctionTable) (n : Nat) (env : Env Value) (e : Expr) :
    (eval table n env e).Obeys (codeConduct (table.reachedNodes e)) fun _ => True :=
  obeys_of_maintains (reachedNodes_maintains table _) n fun _ hn => hn

theorem Console.Continues.output_eq {P : Event → Prop} {c d : Console} (h : c.Continues P d)
    (hP : ∀ ev, P ev → ev.written = []) : d.output = c.output := by
  obtain ⟨later, hlater, hall⟩ := h
  have hnone : later.reverse.flatMap Event.written = [] := by
    rw [List.flatMap_eq_nil_iff]
    exact fun ev hev => hP ev (hall ev (List.mem_reverse.mp hev))
  rw [output, hlater, List.reverse_append, List.flatMap_append, hnone, List.append_nil, output]

/-! ## Main theorem -/

/-- **Effects and failures have a source in the code that a run can reach.**  Where nothing prints the
output stays as it was; where nothing asks for a line the input does, and its end is not met; where
nothing does either no stream fails, and the run ends in the same way on every console.  Every error
belongs to some node. -/
theorem effects_have_sources {table : FunctionTable} {budget : Nat} {env : Env Value} {e : Expr}
    {c d : Console} {r : Except RunError Value}
    (hr : (eval table budget env e).on c = some (r, d)) :
    ((∀ a, .print a ∉ table.reachedNodes e) → d.output = c.output) ∧
    (.input ∉ table.reachedNodes e → d.unread = c.unread ∧ r ≠ .error .endOfInput) ∧
    ((∀ a, .print a ∉ table.reachedNodes e) → .input ∉ table.reachedNodes e →
      (∀ fault, r ≠ .error (.channel fault)) ∧
        ∀ c', ∃ d', (eval table budget env e).on c' = some (r, d')) ∧
    ∀ err, r = .error err → ∃ n ∈ table.reachedNodes e, err.ComesFrom n := by
  obtain ⟨hchange, hends⟩ := eval_obeys_codeConduct table budget env e c r d hr
  have herr : ∀ err, r = .error err → ∃ n ∈ table.reachedNodes e, err.ComesFrom n := by
    rintro err rfl
    exact hends
  refine ⟨fun hprint => ?_, fun hinput => ⟨hchange.unread hinput, fun hend => ?_⟩,
    fun hprint hinput => ⟨fun fault hfault => ?_, fun c' => ?_⟩, herr⟩
  · exact hchange.events.output_eq fun ev hev => hev.written_eq_nil hprint
  · obtain ⟨n, hn, hsource⟩ := herr _ hend
    cases n with
    | input => exact hinput hn
    | _ => exact hsource
  · obtain ⟨n, hn, hsource⟩ := herr _ hfault
    cases n with
    | input => exact hinput hn
    | print a => exact hprint a hn
    | _ => exact hsource
  · have hquiet : c.Continues (·.isTransfer = false) d :=
      hchange.events.mono fun ev hev => hev.not_isTransfer hprint hinput
    exact (eval_composed table budget env e).on_of_quiet hr hquiet c'

/-- Counts down and then takes a text for a number. -/
def misreading : Program where
  functions :=
    [{ name := "f", params := [("n", .int)], result := .int,
       body :=
        .ite (.binop .eq (.var "n") (.int 0)) (.cast .int (.string "none"))
          (.call "f" [.binop .sub (.var "n") (.int 1)]) }]
  main := .call "f" [.int 2]

/-- Announces this first. -/
def announced : Expr := .letIn "u" (.print (.string "go")) misreading.main

theorem effects_have_sources_misreading :
    ((∀ a, .print a ∉ misreading.table.reachedNodes misreading.main) ∧
      .input ∉ misreading.table.reachedNodes misreading.main ∧
      ∃ d, (eval misreading.table 12 .empty misreading.main).on
          (.fresh (Utf8.encode "7") (some 0) true) =
            some (.error (.castFailure (.string "none") .int), d) ∧
        d.output = [] ∧ d.unread = Utf8.encode "7" ∧
        (∀ c', ∃ d', (eval misreading.table 12 .empty misreading.main).on c' =
          some (.error (.castFailure (.string "none") .int), d')) ∧
        ∃ n ∈ misreading.table.reachedNodes misreading.main,
          (RunError.castFailure (.string "none") .int).ComesFrom n) ∧
    .input ∉ misreading.table.reachedNodes announced ∧
    ∃ d, (eval misreading.table 12 .empty announced).on
        (.fresh (Utf8.encode "7") (some 2) false) = some (.error (.channel .closed), d) ∧
      d.unread = Utf8.encode "7" ∧
      ∃ n ∈ misreading.table.reachedNodes announced, (RunError.channel .closed).ComesFrom n := by
  have hcode : ∀ n ∈ misreading.table.reachedNodes misreading.main,
      (∀ a, n ≠ .print a) ∧ n ≠ .input :=
    FunctionTable.forall_reachedNodes_ofDefinitions
      (by simp [Expr.Each, Expr.nodes, Expr.nodesAll, misreading, Expr.int])
      (by simp [Expr.Each, Expr.nodes, Expr.nodesAll, misreading, Expr.int, Expr.string])
  have hannounced : ∀ n ∈ misreading.table.reachedNodes announced, n ≠ .input :=
    FunctionTable.forall_reachedNodes_ofDefinitions
      (by simp [Expr.Each, Expr.nodes, Expr.nodesAll, misreading, Expr.int, Expr.string, announced])
      (by simp [Expr.Each, Expr.nodes, Expr.nodesAll, misreading, Expr.int, Expr.string])
  have hprint : ∀ a, .print a ∉ misreading.table.reachedNodes misreading.main :=
    fun a ha => (hcode _ ha).1 a rfl
  have hinput : .input ∉ misreading.table.reachedNodes misreading.main :=
    fun h => (hcode _ h).2 rfl
  have hinput' : .input ∉ misreading.table.reachedNodes announced := fun h => hannounced _ h rfl
  have hquiet : ∃ d, (eval misreading.table 12 .empty misreading.main).on
      (.fresh (Utf8.encode "7") (some 0) true) =
        some (.error (.castFailure (.string "none") .int), d) := ⟨_, rfl⟩
  have hloud : ∃ d, (eval misreading.table 12 .empty announced).on
      (.fresh (Utf8.encode "7") (some 2) false) = some (.error (.channel .closed), d) := ⟨_, rfl⟩
  obtain ⟨d, hd⟩ := hquiet
  obtain ⟨d', hd'⟩ := hloud
  obtain ⟨hout, hin, hboth, hsource⟩ := effects_have_sources hd
  obtain ⟨-, hin', -, hsource'⟩ := effects_have_sources hd'
  exact ⟨⟨hprint, hinput, d, hd, hout hprint, (hin hinput).1, (hboth hprint hinput).2,
    hsource _ rfl⟩, hinput', d', hd', (hin' hinput').1, hsource' _ rfl⟩

end ExprLang
