import Mathlib.Data.Set.Defs
import ExprLang.FunctionTable
import ExprLang.Proofs.Nodes

/-!
# Code that a run can come to

A run of an expression comes to the nodes of the expression and, through calls, to those of the
bodies that it can reach.  What a part of an expression can reach, or the body of a function called
in it, the expression can reach as well.

* `FunctionTable.Reachable` — the names called in an expression, and repeatedly those called in
  the bodies of reached definitions.
* `FunctionTable.Calls` — one defined function calls another in its body.
* `FunctionTable.Acyclic` — no reachable function calls itself, directly or through others.
* `FunctionTable.reachedNodes` — the nodes of an expression and of all bodies reachable from it.

Principal results: `Reachable.trans`, `Reachable.of_mem_children`, `reachedNodes_of_mem_children`,
`reachedNodes_of_callee` — what is reachable shrinks on every way that evaluation takes;
`Reachable.mem_of_closed` — names closed under calls are all that can be reached.
-/

set_option autoImplicit false

namespace ExprLang

namespace Expr

theorem mem_nodes_of_mem_children {a e n : Expr} (ha : a ∈ e.children) (hn : n ∈ a.nodes) :
    n ∈ e.nodes := by
  rw [nodes_eq_cons]
  exact List.mem_cons_of_mem _ (List.mem_flatMap.mpr ⟨a, ha, hn⟩)

theorem mem_callees_of_mem_children {a e : Expr} {f : Name} (ha : a ∈ e.children)
    (hf : f ∈ a.callees) : f ∈ e.callees := by
  obtain ⟨args, hargs⟩ := mem_callees.mp hf
  exact mem_callees.mpr ⟨args, mem_nodes_of_mem_children ha hargs⟩

end Expr

namespace FunctionTable

/-! ## Names -/

/-- The name need not have a definition. -/
inductive Reachable (table : FunctionTable) (e : Expr) : Name → Prop
  | called {f : Name} : f ∈ e.callees → Reachable table e f
  | through {f g : Name} {d : Definition} :
      Reachable table e g → table[g]? = some d → f ∈ d.body.callees → Reachable table e f

/-- The body of `f` calls `g`, and both are defined. -/
def Calls (table : FunctionTable) (f g : Name) : Prop :=
  ∃ d, table[f]? = some d ∧ g ∈ d.body.callees ∧ g ∈ table

def Acyclic (table : FunctionTable) (e : Expr) : Prop :=
  ∀ f, table.Reachable e f → ¬ Relation.TransGen table.Calls f f

variable {table : FunctionTable} {a e : Expr} {f : Name}

theorem Reachable.trans {g : Name} {d : Definition}
    (hg : table.Reachable e g) (hd : table[g]? = some d) (hf : table.Reachable d.body f) :
    table.Reachable e f := by
  induction hf with
  | called h => exact .through hg hd h
  | through _ hd' h ih => exact .through ih hd' h

theorem reachable_call (table : FunctionTable) (f : Name) (args : List Expr) :
    table.Reachable (.call f args) f :=
  .called (Expr.mem_callees.mpr ⟨args, Expr.mem_nodes_self _⟩)

theorem Reachable.of_mem_children (ha : a ∈ e.children) (h : table.Reachable a f) :
    table.Reachable e f := by
  induction h with
  | called hf => exact .called (Expr.mem_callees_of_mem_children ha hf)
  | through _ hd hf ih => exact .through ih hd hf

/-- Nothing is reachable beyond names that are closed under calls. -/
theorem Reachable.mem_of_closed {names : List Name} (hmain : ∀ g ∈ e.callees, g ∈ names)
    (hbodies : ∀ g ∈ names, ∀ d ∈ table[g]?, ∀ g' ∈ d.body.callees, g' ∈ names)
    (h : table.Reachable e f) : f ∈ names := by
  induction h with
  | called hf => exact hmain _ hf
  | through _ hd hf ih => exact hbodies _ ih _ hd _ hf

/-! ## Nodes -/

def reachedNodes (table : FunctionTable) (e : Expr) : Set Expr :=
  {n | n ∈ e.nodes ∨ ∃ f d, table.Reachable e f ∧ table[f]? = some d ∧ n ∈ d.body.nodes}

theorem mem_reachedNodes_self (table : FunctionTable) (e : Expr) : e ∈ table.reachedNodes e :=
  .inl e.mem_nodes_self

theorem reachedNodes_of_mem_children {n : Expr} (ha : a ∈ e.children)
    (hn : n ∈ table.reachedNodes a) : n ∈ table.reachedNodes e := by
  rcases hn with hn | ⟨f, d, hf, hd, hn⟩
  · exact .inl (Expr.mem_nodes_of_mem_children ha hn)
  · exact .inr ⟨f, d, hf.of_mem_children ha, hd, hn⟩

theorem reachedNodes_of_callee {d : Definition} {n : Expr} (hf : table.Reachable e f)
    (hd : table[f]? = some d) (hn : n ∈ table.reachedNodes d.body) : n ∈ table.reachedNodes e := by
  rcases hn with hn | ⟨g, d', hg, hd', hn⟩
  · exact .inr ⟨f, d, hf, hd, hn⟩
  · exact .inr ⟨g, d', hf.trans hd hg, hd', hn⟩

/-- Nothing is reached but the expression and the definitions. -/
theorem forall_reachedNodes_ofDefinitions {P : Expr → Prop} {defs : List Definition} (he : e.Each P)
    (hdefs : ∀ d ∈ defs, d.body.Each P) : ∀ n ∈ (ofDefinitions defs).reachedNodes e, P n := by
  rintro n (hn | ⟨f, d, -, hd, hn⟩)
  · exact he n hn
  · exact hdefs d (mem_of_getElem?_ofDefinitions hd) n hn

end FunctionTable

end ExprLang
