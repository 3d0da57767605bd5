import ExprLang.Demo
import ExprLang.Proofs.Declarations
import ExprLang.Proofs.ReachedDefinitions

/-!
# The order of definitions

Functions may be defined in any order, before or after those that call them.  Checker and evaluator
look them up by name, and with distinct names the order in which a table was filled does not show in
it.  Where names repeat, a run sees the last definition of each name and nothing of the others.

* `Program.on_run_congr` — programs whose tables have the same entries run alike.
* `Program.infer_eq_ok_of_perm` — acceptance does not depend on which body is checked first.

Principal result: `definition_order_irrelevant`.
-/

set_option autoImplicit false

namespace ExprLang

variable {p p' : Program}

theorem Program.on_run_congr (hmain : p'.main = p.main)
    (htable : ∀ f : Name, p.table[f]? = p'.table[f]?) (budget : Nat) (c : Console) :
    (p.run budget).on c = (p'.run budget).on c := by
  rw [Program.run, Program.run, hmain]
  exact on_eval_congr htable budget .empty p.main c

theorem Program.infer_eq_ok_of_perm (hmain : p'.main = p.main)
    (hperm : p.functions.Perm p'.functions) {t : Ty} (h : p.infer.verdict = .ok t) :
    p'.infer.verdict = .ok t := by
  obtain ⟨hnames, hdefs, hbody⟩ := infer_eq_ok_iff.mp h
  have htable : ∀ f : Name, p.table[f]? = p'.table[f]? :=
    FunctionTable.getElem?_ofDefinitions_of_perm hperm hnames
  refine infer_eq_ok_iff.mpr ⟨?_, fun d hd => ?_, ?_⟩
  · exact (hperm.map Definition.name).nodup_iff.mp hnames
  · rw [← checkDefinition_congr htable d]
    exact hdefs d (hperm.mem_iff.mpr hd)
  · rw [hmain, ← infer_congr (Expr.each_sameSignature_of_getElem?_eq htable p.main) fun _ _ => rfl]
    exact hbody

/-- What is left of a list of definitions makes a table with the same entries, in any order. -/
theorem FunctionTable.getElem?_of_perm_lastOfEachName {defs left : List Definition}
    (hleft : left.Perm (lastOfEachName defs)) (f : Name) :
    (ofDefinitions defs)[f]? = (ofDefinitions left)[f]? := by
  rw [← getElem?_lastOfEachName defs f]
  exact getElem?_ofDefinitions_of_perm hleft.symm (nodup_names_lastOfEachName defs) f

/-! ## Main theorem -/

/-- **The order of the definitions does not matter.**  Of two programs with the same definitions in
different orders the checker accepts both, with one type, or neither; both repeat a name or neither
does; and if none is repeated they run alike, accepted or not.  If names are repeated, a program runs
like the one that is left without the definitions which a later one of the same name follows, in any
order. -/
theorem definition_order_irrelevant (hmain : p'.main = p.main)
    (hperm : p'.functions.Perm p.functions) :
    (∀ t, p.infer.verdict = .ok t ↔ p'.infer.verdict = .ok t) ∧
    ((∃ f, declare p.functions = .error (.multipleDefinitions f)) ↔
      ∃ f, declare p'.functions = .error (.multipleDefinitions f)) ∧
    ((p.functions.map Definition.name).Nodup →
      ∀ (budget : Nat) (c : Console), (p.run budget).on c = (p'.run budget).on c) ∧
    ∀ q : Program, q.main = p.main →
      q.functions.Perm (FunctionTable.lastOfEachName p.functions) →
      ∀ (budget : Nat) (c : Console), (p.run budget).on c = (q.run budget).on c := by
  refine ⟨fun t => ⟨?_, ?_⟩, ?_, fun hnames budget c => ?_, fun q hq hleft budget c => ?_⟩
  · exact Program.infer_eq_ok_of_perm hmain hperm.symm
  · exact Program.infer_eq_ok_of_perm hmain.symm hperm
  · rw [declare_eq_error_iff, declare_eq_error_iff, (hperm.map Definition.name).nodup_iff]
  · exact Program.on_run_congr hmain
      (FunctionTable.getElem?_ofDefinitions_of_perm hperm.symm hnames) budget c
  · exact Program.on_run_congr hq (FunctionTable.getElem?_of_perm_lastOfEachName hleft) budget c

/-- Two functions that call each other; the second and the third one have the same name. -/
def parityTwice : Program where
  functions :=
    [Demo.parityFunction "odd" false "even", Demo.parityFunction "even" false "even",
      Demo.parityFunction "even" true "odd"]
  main := Demo.parity.main

def parityReversed : Program where
  functions := Demo.parity.functions.reverse
  main := Demo.parity.main

theorem definition_order_irrelevant_parity :
    parityReversed.functions.Perm Demo.parity.functions ∧
    (Demo.parity.functions.map Definition.name).Nodup ∧
    Demo.parity.infer.verdict = .ok .string ∧ parityReversed.infer.verdict = .ok .string ∧
    (¬ ∃ f, declare parityReversed.functions = .error (.multipleDefinitions f)) ∧
    Demo.parity.functions.Perm (FunctionTable.lastOfEachName parityTwice.functions) ∧
    ∃ d, (Demo.parity.run 20).on (.faultless (Utf8.encode "3\n")) =
        some (.ok (.string "false"), d) ∧
      (parityReversed.run 20).on (.faultless (Utf8.encode "3\n")) =
        some (.ok (.string "false"), d) ∧
      (parityTwice.run 20).on (.faultless (Utf8.encode "3\n")) =
        some (.ok (.string "false"), d) := by
  have hperm : parityReversed.functions.Perm Demo.parity.functions := List.reverse_perm _
  have hnames : (Demo.parity.functions.map Definition.name).Nodup := by decide
  have hinfer : Demo.parity.infer.verdict = .ok .string := rfl
  have hrun : ∃ d, (Demo.parity.run 20).on (.faultless (Utf8.encode "3\n")) =
      some (.ok (.string "false"), d) := ⟨_, rfl⟩
  obtain ⟨d, hd⟩ := hrun
  obtain ⟨htypes, hrefused, hsame, -⟩ := @definition_order_irrelevant Demo.parity parityReversed
    rfl hperm
  obtain ⟨-, -, -, hlast⟩ := @definition_order_irrelevant parityTwice parityTwice rfl (.refl _)
  have hleft : Demo.parity.functions.Perm (FunctionTable.lastOfEachName parityTwice.functions) :=
    (List.reverse_perm _).symm
  refine ⟨hperm, hnames, hinfer, (htypes .string).mp hinfer, fun h => ?_, hleft, d, hd, ?_, ?_⟩
  · exact declare_eq_error_iff.mp (hrefused.mpr h) hnames
  · exact (hsame hnames 20 _).symm.trans hd
  · exact (hlast Demo.parity rfl hleft 20 _).trans hd

end ExprLang
