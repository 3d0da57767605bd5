import ExprLang.Proofs.Composed
import ExprLang.Proofs.Nodes

/-!
# Where errors come from

Each kind of node has errors of its own, and an error that a run ends with was raised by a node that
the run came to.  What is to be shown of all runs, of their errors and of what they do to the console,
is therefore shown node by node, under whatever holds of the environments in which the nodes are
evaluated.

* `Expr.Raises` — the errors of a node itself, those of its parts apart.
* `Expr.operands` — the parts that are evaluated in the environment of the node.
* `Maintains` — a property of environments and expressions that evaluation keeps, and under which no
  node does what a conduct forbids.

Principal result: `obeys_of_maintains` — then every evaluation that starts with the property keeps to
the conduct.
-/

set_option autoImplicit false

namespace ExprLang

/-! ## Errors of a node -/

/-- `Raises table env e err`: evaluated in `env`, the node `e` may fail with `err`. -/
inductive Expr.Raises (table : FunctionTable) (env : Env Value) : Expr → RunError → Prop
  | unbound {x : Name} : env.find? x = none → Raises table env (.var x) (.unboundName x)
  | applied {op : BinOp} {left right : Expr} {err : RunError} :
      op.Errors err → Raises table env (.binop op left right) err
  | negated {e : Expr} {found : Value} :
      found.type ≠ .bool → Raises table env (.not e) (.typeError .bool found)
  | tested {test yes no : Expr} {found : Value} :
      found.type ≠ .bool → Raises table env (.ite test yes no) (.typeError .bool found)
  | undefined {f : Name} {args : List Expr} :
      table[f]? = none → Raises table env (.call f args) (.undefinedFunction f)
  | arity {f : Name} {args : List Expr} {d : Definition} :
      table[f]? = some d → d.params.length ≠ args.length →
      Raises table env (.call f args) (.arityMismatch f d.params.length args.length)
  | joined {parts : List Expr} {found : Value} :
      found.type ≠ .string → Raises table env (.concat parts) (.typeError .string found)
  | printed {e : Expr} {found : Value} :
      found.type ≠ .string → Raises table env (.print e) (.typeError .string found)
  | output {e : Expr} {fault : ChannelFault} :
      fault ≠ .invalidText → Raises table env (.print e) (.channel fault)
  | endOfInput : Raises table env .input .endOfInput
  | unreadable : Raises table env .input (.channel .invalidText)
  | cast {target : Ty} {e : Expr} {v : Value} :
      cast? target v = none → Raises table env (.cast target e) (.castFailure v target)

section Raises

variable {table : FunctionTable} {env : Env Value}

theorem cast_raises (target : Ty) (e : Expr) (v : Value) :
    Fails ((Expr.cast target e).Raises table env) (cast v target) := by
  refine (cast_fails v target).weaken ?_
  rintro _ ⟨hnone, rfl⟩
  exact .cast hnone

theorem Console.readLine_raises (c : Console) :
    Fails (Expr.input.Raises table env) c.readLine.1 := by
  refine c.readLine_fails.weaken ?_
  rintro _ (rfl | rfl)
  · exact .endOfInput
  · exact .unreadable

theorem Console.writeLine_raises (c : Console) (s : String) (e : Expr) :
    Fails ((Expr.print e).Raises table env) (c.writeLine s).1 := by
  refine (c.writeLine_fails s).weaken ?_
  rintro _ (rfl | rfl)
  · exact .output (by decide)
  · exact .output (by decide)

end Raises

/-! ## Properties that evaluation keeps -/

/-- All children but the body of a binding. -/
def Expr.operands : Expr → List Expr
  | .letIn _ bound _ => [bound]
  | e => e.children

theorem Expr.mem_children_of_mem_operands {a e : Expr} (h : a ∈ e.operands) : a ∈ e.children := by
  cases e with
  | letIn x bound body => exact List.mem_cons.mpr (.inl (List.mem_singleton.mp h))
  | _ => exact h

/-- `Inv` holds wherever evaluation goes from where it holds, and there no node does what `K`
forbids. -/
structure Maintains (table : FunctionTable) (K : Conduct) (Inv : Env Value → Expr → Prop) :
    Prop where
  operand {env : Env Value} {a e : Expr} : Inv env e → a ∈ e.operands → Inv env a
  body {env : Env Value} {x : Name} {bound body : Expr} :
    Inv env (.letIn x bound body) → ∀ v, Inv (env.bind x v) body
  /-- The body of a function is evaluated with a value for each parameter and nothing else. -/
  callee {env : Env Value} {f : Name} {args : List Expr} {d : Definition} {values : List Value} :
    Inv env (.call f args) → table[f]? = some d → values.length = d.params.length →
      Inv (Env.empty.bindAll ((d.params.map Prod.fst).zip values)) d.body
  raises {env : Env Value} {e : Expr} {err : RunError} :
    Inv env e → e.Raises table env err → K.fault err
  notes {e : Event} : e.isTransfer = false → ∀ c : Console, K.step c (c.record e)
  reads {env : Env Value} : Inv env .input → ∀ c : Console, K.step c c.readLine.2
  writes {env : Env Value} {e : Expr} : Inv env (.print e) →
    ∀ (c : Console) (s : String), K.step c (c.writeLine s).2

/-- **An evaluation that starts with a property that is maintained keeps to the conduct.** -/
theorem obeys_of_maintains {table : FunctionTable} {K : Conduct} {Inv : Env Value → Expr → Prop}
    (H : Maintains table K Inv) (n : Nat) {env : Env Value} {e : Expr} (h : Inv env e) :
    (eval table n env e).Obeys K fun _ => True := by
  induction n generalizing env e with
  | zero => exact .unfinished
  | succ n ih =>
    have hsub : ∀ a ∈ e.operands, (eval table n env a).Obeys K fun _ => True :=
      fun a ha => ih (H.operand h ha)
    -- what is an error of the node is an error that the conduct admits
    have hraises : ∀ err, e.Raises table env err → K.fault err := fun _ => H.raises h
    cases e with
    | lit v => exact .pure trivial
    | var x =>
      rw [eval]
      exact (Run.Obeys.ofOption fun hx => hraises _ (.unbound hx)).weaken fun _ _ => trivial
    | binop op left right =>
      have hleft := hsub left (by simp [Expr.operands])
      have hright := hsub right (by simp [Expr.operands])
      rw [eval]
      refine hleft.bind fun a _ => hright.bind fun b _ => ?_
      refine (Run.Obeys.record (H.notes rfl)).bind fun _ _ => .ofExcept ?_
      exact (op.apply_fails a b).weaken fun _ herr => hraises _ (.applied herr)
    | not e =>
      rw [eval]
      refine (hsub e (by simp [Expr.operands])).bind fun v _ => ?_
      have htest := v.expectBool_tests.fails fun hne => hraises _ (.negated hne)
      exact (Run.Obeys.ofExcept htest).bind fun b _ => .pure trivial
    | letIn x bound body =>
      rw [eval]
      exact (hsub bound (by simp [Expr.operands])).bind fun v _ => ih (H.body h v)
    | ite test yes no =>
      have hyes := hsub yes (by simp [Expr.operands])
      have hno := hsub no (by simp [Expr.operands])
      rw [eval]
      refine (hsub test (by simp [Expr.operands])).bind fun v _ => ?_
      have htest := v.expectBool_tests.fails fun hne => hraises _ (.tested hne)
      refine (Run.Obeys.ofExcept htest).bind fun b _ => ?_
      split
      · exact hyes
      · exact hno
    | call f args =>
      have hargs : (args.mapM (eval table n env)).Obeys K fun values =>
          List.Forall₂ (fun _ _ => True) args values :=
        .mapM (List.forall₂_same.mpr fun a ha => hsub a ha)
      rw [eval]
      refine (Run.Obeys.ofOption fun hd => hraises _ (.undefined hd)).bind fun d hd => ?_
      refine (Run.Obeys.ensure fun hlen => hraises _ (.arity hd hlen)).bind fun _ hlen => ?_
      refine hargs.bind fun values hvalues => ?_
      refine (Run.Obeys.record (H.notes rfl)).bind fun _ _ => ?_
      exact ih (H.callee h hd (hvalues.length_eq.symm.trans hlen.symm))
    | concat parts =>
      have hparts : List.Forall₂ (fun _ a => (do
          Run.ofExcept (← eval table n env a).expectString : Run String).Obeys K fun _ => True)
          parts parts := by
        refine List.forall₂_same.mpr fun a ha => (hsub a ha).bind fun v _ => ?_
        exact .ofExcept (v.expectString_tests.fails fun hne => hraises _ (.joined hne))
      rw [eval]
      exact (Run.Obeys.mapM hparts).bind fun texts _ => .pure trivial
    | print e =>
      have hwrite : ∀ s, (Run.writeLine s).Obeys K fun _ => True := fun s => .ofStep fun c =>
        ⟨H.writes h c s, (c.writeLine_raises s e).weaken hraises⟩
      rw [eval]
      refine (hsub e (by simp [Expr.operands])).bind fun v _ => ?_
      have htest := v.expectString_tests.fails fun hne => hraises _ (.printed hne)
      exact (Run.Obeys.ofExcept htest).bind fun s _ => (hwrite s).bind fun _ _ => .pure trivial
    | input =>
      have hread : Run.readLine.Obeys K fun _ => True := .ofStep fun c =>
        ⟨H.reads h c, c.readLine_raises.weaken hraises⟩
      rw [eval]
      exact hread.bind fun s _ => .pure trivial
    | cast target e =>
      rw [eval]
      refine (hsub e (by simp [Expr.operands])).bind fun v _ => ?_
      refine (Run.Obeys.record (H.notes rfl)).bind fun _ _ => .ofExcept ?_
      exact (cast_raises target e v).weaken hraises

end ExprLang
