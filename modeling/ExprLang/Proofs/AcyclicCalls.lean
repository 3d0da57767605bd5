import Mathlib.Algebra.BigOperators.Group.List.Basic
import Mathlib.Algebra.GroupWithZero.Nat
import ExprLang.Proofs.Declarations
import ExprLang.Proofs.ReachedNodes
import ExprLang.Proofs.Termination

/-!
# Nesting without recursion

Where no reachable function calls itself, directly or through others, each body is entered at most
once on the way from an expression down to a leaf.  So the heights of the expression and of all bodies
bound how deep evaluations are nested, whatever the values, the input and the output are.

* `FunctionTable.depthBound` — the height of an expression and of every body of a table.
* `NestsTo` — a run finishes, and this is how deep its evaluations are nested.

Principal results: `eval_finishes_within` — by induction on the functions that may still be called,
for a function is not called again below its own body; `nesting_le_depthBound` — the bound on the
nesting; `acyclic_of_rank` — a table in which every body calls functions of lower rank only has no
recursion.
-/

set_option autoImplicit false

namespace ExprLang

namespace FunctionTable

variable {table : FunctionTable} {e : Expr}

/-! ## The bound -/

/-- A name without a definition has no body. -/
def bodyHeight (table : FunctionTable) (f : Name) : Nat :=
  match table[f]? with
  | some d => d.body.height
  | none => 0

theorem bodyHeight_of_getElem? {f : Name} {d : Definition} (hd : table[f]? = some d) :
    table.bodyHeight f = d.body.height := by
  rw [bodyHeight, hd]

def depthBound (table : FunctionTable) (e : Expr) : Nat :=
  e.height + (table.keys.map table.bodyHeight).sum

/-! ## Recursion -/

theorem mem_of_getElem?_eq_some {f : Name} {d : Definition} (hd : table[f]? = some d) :
    f ∈ table := by
  rw [Std.TreeMap.mem_iff_isSome_getElem?, hd]
  rfl

theorem transGen_calls_of_reachable {f g : Name} {d : Definition} (hd : table[f]? = some d)
    (hg : table.Reachable d.body g) (hdefined : g ∈ table) : Relation.TransGen table.Calls f g := by
  induction hg with
  | called h => exact .single ⟨d, hd, h, hdefined⟩
  | through _ hd' h ih => exact .tail (ih (mem_of_getElem?_eq_some hd')) ⟨_, hd', h, hdefined⟩

theorem Acyclic.body (h : table.Acyclic e) {f : Name} {d : Definition}
    (hf : table.Reachable e f) (hd : table[f]? = some d) : table.Acyclic d.body :=
  fun g hg => h g (hf.trans hd hg)

/-- Below its own body a function is not called again. -/
theorem Acyclic.ne_of_reachable (h : table.Acyclic e) {f g : Name} {d : Definition}
    (hf : table.Reachable e f) (hd : table[f]? = some d) (hg : table.Reachable d.body g)
    (hdefined : g ∈ table) : g ≠ f := by
  rintro rfl
  exact h g hf (transGen_calls_of_reachable hd hg hdefined)

theorem acyclic_of_rank {defs : List Definition} (rank : Name → Nat)
    (h : ∀ d ∈ defs, ∀ g ∈ d.body.callees, rank g < rank d.name) (e : Expr) :
    (ofDefinitions defs).Acyclic e := by
  have hcall : ∀ f g, (ofDefinitions defs).Calls f g → rank g < rank f := by
    rintro f g ⟨d, hd, hg, -⟩
    rw [← name_of_getElem?_ofDefinitions hd]
    exact h d (mem_of_getElem?_ofDefinitions hd) g hg
  have hpath : ∀ f g, Relation.TransGen (ofDefinitions defs).Calls f g → rank g < rank f := by
    intro f g hfg
    induction hfg with
    | single hstep => exact hcall _ _ hstep
    | tail _ hstep ih => exact Nat.lt_trans (hcall _ _ hstep) ih
  intro f _ hcycle
  exact Nat.lt_irrefl _ (hpath f f hcycle)

end FunctionTable

/-! ## Nesting -/

/-- Each evaluation hands one unit of budget less to those nested in it.  So a run is cut short on
just the budgets that its nesting exceeds, and `depth` is the least of the others. -/
structure NestsTo (table : FunctionTable) (env : Env Value) (e : Expr) (c : Console) (depth : Nat)
    (ending : Except RunError Value × Console) : Prop where
  unfinished : ∀ n < depth, (eval table n env e).on c = none
  finishes : ∀ n, depth ≤ n → (eval table n env e).on c = some ending

variable {table : FunctionTable}

theorem nestsTo_of_on_eq_some {n : Nat} {env : Env Value} {e : Expr} {c : Console}
    {ending : Except RunError Value × Console} (h : (eval table n env e).on c = some ending) :
    ∃ depth ≤ n, NestsTo table env e c depth ending := by
  induction n with
  | zero => cases h
  | succ n ih =>
    cases hn : (eval table n env e).on c with
    | none =>
      refine ⟨n + 1, Nat.le_refl _, fun m hm => ?_, fun m hm => eval_mono table hm env e c _ h⟩
      cases hm' : (eval table m env e).on c with
      | none => rfl
      | some ending' =>
        have hle : m ≤ n := by omega
        rw [eval_mono table hle env e c _ hm'] at hn
        cases hn
    | some ending' =>
      have hsame := eval_le_succ table n env e c _ hn
      rw [h] at hsame
      obtain ⟨depth, hdepth, hnests⟩ := ih (hn.trans hsame.symm)
      exact ⟨depth, by omega, hnests⟩

/-- **Without recursion a run finishes.**  The induction is on the functions that may still be
called: whoever enters a body takes its function off the list, and its height off the budget. -/
theorem eval_finishes_within {n : Nat} {names : List Name} (hn : names.length < n) {e : Expr}
    (hacyclic : table.Acyclic e) (hnames : ∀ f, table.Reachable e f → f ∈ table → f ∈ names)
    (env : Env Value) :
    (eval table (e.height + (names.map table.bodyHeight).sum) env e).Finishes := by
  induction n generalizing names e env with
  | zero => exact absurd hn (Nat.not_lt_zero _)
  | succ n ih =>
    refine eval_finishes (fun node hnode => ?_) (Nat.le_refl _) env
    cases node with
    | call f args =>
      intro d hd env'
      have hf : table.Reachable e f := .called (Expr.mem_callees.mpr ⟨args, hnode⟩)
      have hmem : f ∈ names := hnames f hf (FunctionTable.mem_of_getElem?_eq_some hd)
      have hsum : d.body.height + ((names.erase f).map table.bodyHeight).sum =
          (names.map table.bodyHeight).sum := by
        rw [← FunctionTable.bodyHeight_of_getElem? hd]
        exact List.sum_map_erase _ hmem
      have hlen : (names.erase f).length < n := by
        have hpos : 0 < names.length := List.length_pos_of_mem hmem
        rw [List.length_erase_of_mem hmem]
        omega
      rw [← hsum]
      refine ih hlen (hacyclic.body hf hd) (fun g hg hdefined => ?_) env'
      have hne : g ≠ f := hacyclic.ne_of_reachable hf hd hg hdefined
      exact (List.mem_erase_of_ne hne).mpr (hnames g (hf.trans hd hg) hdefined)
    | _ => trivial

/-! ## Main theorem -/

/-- **Only recursion can make evaluation run on.**  Where the functions that an expression can reach
do not call themselves, directly or through others, every run of it finishes, on whatever values and
streams, checked or not, and its evaluations are never nested deeper than a bound which the table and
the expression alone decide. -/
theorem nesting_le_depthBound {e : Expr} (h : table.Acyclic e) (env : Env Value) (c : Console) :
    ∃ depth ≤ table.depthBound e, ∃ ending, NestsTo table env e c depth ending := by
  have hnames : ∀ f, table.Reachable e f → f ∈ table → f ∈ table.keys :=
    fun f _ hdefined => Std.TreeMap.mem_keys.mpr hdefined
  have hfin := eval_finishes_within (Nat.lt_succ_self _) h hnames env
  obtain ⟨ending, hending⟩ := hfin c
  obtain ⟨depth, hdepth, hnests⟩ := nestsTo_of_on_eq_some hending
  exact ⟨depth, hdepth, ending, hnests⟩

/-- No checker would accept these: `join` is called with what is no string by its declaration, and
`shout` calls a function that does not exist. -/
def shouting : List Definition :=
  [{ name := "join", params := [("a", .string), ("b", .string)], result := .string,
     body := .concat [.var "a", .call "shout" [.var "b"]] },
   { name := "shout", params := [("s", .int)], result := .unit,
     body := .ite (.binop .eq (.var "s") (.string "")) (.call "missing" [])
      (.concat [.var "s", .string "!"]) }]

def shoutLines : Expr := .call "join" [.call "shout" [.input], .cast .string .input]

theorem nesting_le_depthBound_shoutLines :
    (FunctionTable.ofDefinitions shouting).Acyclic shoutLines ∧
    (FunctionTable.ofDefinitions shouting).depthBound shoutLines = 9 ∧
    ∃ depth ≤ 9, ∃ d, NestsTo (.ofDefinitions shouting) .empty shoutLines
      (.faultless (Utf8.encode "a\n\n")) depth (.error (.undefinedFunction "missing"), d) := by
  have hacyclic : (FunctionTable.ofDefinitions shouting).Acyclic shoutLines :=
    FunctionTable.acyclic_of_rank (fun f => if f = "join" then 2 else if f = "shout" then 1 else 0)
      (by decide) shoutLines
  have hbound : (FunctionTable.ofDefinitions shouting).depthBound shoutLines = 9 := by decide
  obtain ⟨depth, hdepth, ⟨r, d⟩, hnests⟩ :=
    nesting_le_depthBound hacyclic .empty (.faultless (Utf8.encode "a\n\n"))
  rw [hbound] at hdepth
  have hrun := hnests.finishes 9 hdepth
  obtain rfl : r = .error (.undefinedFunction "missing") := by
    cases hrun
    rfl
  exact ⟨hacyclic, hbound, depth, hdepth, d, hnests⟩

end ExprLang
