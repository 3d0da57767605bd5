import Std.Data.TreeMap.Lemmas
import ExprLang.Expr

/-!
# Function tables

* `FunctionTable` — the definition of each function, by name and in the order of the names.
* `FunctionTable.ofDefinitions` — of several definitions of one name the last one counts.

Principal result: `getElem?_ofDefinitions` — a name's entry is the last definition that has it.
-/

set_option autoImplicit false

namespace ExprLang

abbrev FunctionTable := Std.TreeMap Name Definition

namespace FunctionTable

def ofDefinitions (defs : List Definition) : FunctionTable :=
  defs.foldl (fun table d => table.insert d.name d) ∅

theorem getElem?_foldl_insert (defs : List Definition) (table : FunctionTable) (f : Name) :
    (defs.foldl (fun table d => table.insert d.name d) table)[f]? =
      (defs.reverse.find? fun d => d.name == f).or table[f]? := by
  induction defs generalizing table with
  | nil => rfl
  | cons d defs ih =>
    rw [List.foldl_cons, ih, List.reverse_cons, List.find?_append, Option.or_assoc,
      Std.TreeMap.getElem?_insert]
    congr 1
    by_cases h : d.name = f <;> simp [h]

theorem getElem?_ofDefinitions (defs : List Definition) (f : Name) :
    (ofDefinitions defs)[f]? = defs.reverse.find? fun d => d.name == f := by
  simp [ofDefinitions, getElem?_foldl_insert]

theorem mem_of_getElem?_ofDefinitions {defs : List Definition} {f : Name} {d : Definition}
    (h : (ofDefinitions defs)[f]? = some d) : d ∈ defs := by
  rw [getElem?_ofDefinitions] at h
  exact List.mem_reverse.mp (List.mem_of_find?_eq_some h)

end FunctionTable

def Program.table (p : Program) : FunctionTable := .ofDefinitions p.functions

end ExprLang
