import ExprLang.Proofs.InputLines
import ExprLang.Proofs.OutputFaults
import ExprLang.Proofs.UnreadInput

/-!
# Printed texts read back

What one run prints another one can read.  A printed text ends with a newline, so each text comes
back as one line unless it has newlines of its own.  The reader takes a carriage return before the
newline for part of the line's end, so a text that ends with one comes back without it.

* `Line.pieces` — a text cut at its newlines.
* `Line.readBack` — what is read of a text that is printed on one line.
* `ReadsAll` — requests for lines until the input ends, and the strings they evaluate to.
* `printing` — the task of printing a text.

Principal results: `Line.map_readBack_eq_self_iff` — the texts that come back as they are;
`ReadsAll.of_printed` — what is read of any printed texts; `printed_read_back` — prints and requests
together.
-/

set_option autoImplicit false

namespace ExprLang

/-! ## Texts and lines -/

namespace Line

variable {s : String} {ss : List String}

/-- What is between the newlines of a text. -/
def pieces (s : String) : List String := (s.toList.splitOn '\n').map String.ofList

/-- A piece as it is read, with the newline that follows it. -/
def readBack (s : String) : String := chomp (s ++ "\n")

theorem pieces_of_notMem (h : '\n' ∉ s.toList) : pieces s = [s] := by
  rw [pieces, List.splitOn_eq_singleton h, List.map_singleton, String.ofList_toList]

theorem pieces_of_newline (h : '\n' ∉ s.toList) (t : String) :
    pieces (s ++ "\n" ++ t) = s :: pieces t := by
  have htext : (s ++ "\n" ++ t).toList = s.toList ++ '\n' :: t.toList := by simp
  rw [pieces, htext, List.splitOn_append_cons_self_of_not_mem h, List.map_cons,
    String.ofList_toList, pieces]

theorem length_pieces_pos (s : String) : 0 < (pieces s).length := by
  rw [pieces, List.length_map]
  exact List.length_pos_of_ne_nil (List.splitOn_ne_nil _ _)

theorem length_le_flatMap_pieces (ss : List String) : ss.length ≤ (ss.flatMap pieces).length := by
  induction ss with
  | nil => exact Nat.le_refl _
  | cons s ss ih =>
    have hs := length_pieces_pos s
    rw [List.flatMap_cons, List.length_append, List.length_cons]
    omega

theorem exists_of_newline_mem (h : '\n' ∈ s.toList) :
    ∃ first more : String, s = first ++ "\n" ++ more ∧ '\n' ∉ first.toList := by
  obtain ⟨first, more, hs, hfirst⟩ := List.eq_append_cons_of_mem h
  refine ⟨String.ofList first, String.ofList more, ?_, by simpa using hfirst⟩
  rw [← String.toList_inj, hs]
  simp

theorem readBack_eq_self_iff : readBack s = s ↔ s.toList.getLast? ≠ some '\r' := by
  have hline : (s ++ "\n").toList = s.toList ++ ['\n'] := by simp
  rw [readBack, chomp, hline, chompChars, List.getLast?_concat, if_pos rfl, List.dropLast_concat]
  dsimp only
  split
  · rename_i hreturn
    obtain ⟨start, hstart⟩ := List.getLast?_eq_some_iff.mp hreturn
    simp only [hreturn, ne_eq, not_true, iff_false]
    rw [hstart, List.dropLast_concat, ← String.toList_inj, String.toList_ofList, hstart]
    simp
  · rename_i hreturn
    simp [hreturn]

theorem map_readBack_cons (h : '\n' ∉ s.toList) (ss : List String) :
    ((s :: ss).flatMap pieces).map readBack = readBack s :: (ss.flatMap pieces).map readBack := by
  rw [List.flatMap_cons, pieces_of_notMem h, List.singleton_append, List.map_cons]

/-- A newline makes more lines than there are texts, and no other text can make up for it. -/
theorem notMem_of_map_readBack (h : ((s :: ss).flatMap pieces).map readBack = s :: ss) :
    '\n' ∉ s.toList := by
  intro hmem
  obtain ⟨first, more, rfl, hfirst⟩ := exists_of_newline_mem hmem
  have hmore := length_pieces_pos more
  have hrest := length_le_flatMap_pieces ss
  have hlength := congrArg List.length h
  rw [List.length_map, List.flatMap_cons, List.length_append, pieces_of_newline hfirst,
    List.length_cons, List.length_cons] at hlength
  omega

/-- **The texts that come back as they are.** -/
theorem map_readBack_eq_self_iff : (ss.flatMap pieces).map readBack = ss ↔
    ∀ s ∈ ss, '\n' ∉ s.toList ∧ s.toList.getLast? ≠ some '\r' := by
  induction ss with
  | nil => simp
  | cons s ss ih =>
    rw [List.forall_mem_cons, ← ih, ← readBack_eq_self_iff, and_assoc]
    constructor
    · intro h
      have hs := notMem_of_map_readBack h
      rw [map_readBack_cons hs] at h
      exact ⟨hs, List.cons.inj h⟩
    · rintro ⟨hs, hself, hrest⟩
      rw [map_readBack_cons hs, hself, hrest]

theorem ofText_append (s : String) (more : List UInt8) :
    ofText s ++ more = Utf8.encode s ++ newline :: more := by
  rw [ofText, List.append_assoc, List.singleton_append]

end Line

namespace Console

variable {s : String} {more : List UInt8}

theorem nextLine_ofText (h : '\n' ∉ s.toList) (more : List UInt8) :
    nextLine (Line.ofText s ++ more) = .ok (Line.readBack s) := by
  have hbytes : Line.newline ∉ Utf8.encode s := mt Line.newline_mem_encode_iff.mp h
  have hfirst : Line.first (Line.ofText s ++ more) = Utf8.encode (s ++ "\n") := by
    rw [Line.ofText_append, Line.first_of_line hbytes, Utf8.encode_append]
    rfl
  have hne : Line.ofText s ++ more ≠ [] := by simp [Line.ofText]
  rw [nextLine, if_neg hne, hfirst, Utf8.decode?_encode]
  rfl

theorem unread_readLine_ofText (h : '\n' ∉ s.toList) {c : Console}
    (hc : c.unread = Line.ofText s ++ more) : c.readLine.2.unread = more := by
  have hbytes : Line.newline ∉ Utf8.encode s := mt Line.newline_mem_encode_iff.mp h
  show Line.rest c.unread = more
  rw [hc, Line.ofText_append, Line.rest_of_line hbytes]

end Console

variable {table : FunctionTable} {env : Env Value}

/-! ## Reading -/

/-- Requests for lines, one after the other until the input ends, evaluate to these strings. -/
inductive ReadsAll (table : FunctionTable) (env : Env Value) (budget : Nat) :
    Console → List String → Prop
  | ended {c d : Console} :
      (eval table budget env .input).on c = some (.error .endOfInput, d) →
      ReadsAll table env budget c []
  | line {c d : Console} {s : String} {ss : List String} :
      (eval table budget env .input).on c = some (.ok (.string s), d) →
      ReadsAll table env budget d ss → ReadsAll table env budget c (s :: ss)

namespace ReadsAll

variable {budget : Nat} {c : Console} {ss : List String}

theorem unique {ss' : List String} (h : ReadsAll table env budget c ss)
    (h' : ReadsAll table env budget c ss') : ss = ss' := by
  induction h generalizing ss' with
  | ended hrun =>
    cases h' with
    | ended _ => rfl
    | line hrun' _ =>
      rw [hrun] at hrun'
      cases hrun'
  | line hrun _ ih =>
    cases h' with
    | ended hrun' =>
      rw [hrun] at hrun'
      cases hrun'
    | line hrun' hrest =>
      rw [hrun] at hrun'
      cases hrun'
      rw [ih hrest]

theorem of_unread_eq_nil (n : Nat) (hc : c.unread = []) : ReadsAll table env (n + 1) c [] := by
  refine .ended (d := c.readLine.2) ?_
  rw [on_eval_input, hc]
  rfl

/-- A text without newlines is one line. -/
theorem of_ofText {n : Nat} {s : String} {more : List UInt8} (hs : '\n' ∉ s.toList)
    (hc : c.unread = Line.ofText s ++ more) (h : ReadsAll table env (n + 1) c.readLine.2 ss) :
    ReadsAll table env (n + 1) c (Line.readBack s :: ss) := by
  refine .line ?_ h
  rw [on_eval_input, hc, Console.nextLine_ofText hs]
  rfl

/-- Any text is as many lines as it has pieces.  The induction is on its length, for what follows
its first newline is a text again. -/
theorem of_pieces {n : Nat} {more : List UInt8}
    (h : ∀ d : Console, d.unread = more → ReadsAll table env (n + 1) d ss) (s : String)
    (hc : c.unread = Line.ofText s ++ more) :
    ReadsAll table env (n + 1) c ((Line.pieces s).map Line.readBack ++ ss) := by
  induction hlength : s.length using Nat.strongRecOn generalizing s c with
  | ind length ih =>
    by_cases hs : '\n' ∈ s.toList
    · obtain ⟨first, rest, rfl, hfirst⟩ := Line.exists_of_newline_mem hs
      have hunread : c.unread = Line.ofText first ++ (Line.ofText rest ++ more) := by
        rw [hc]
        simp only [Line.ofText, Utf8.encode_append, List.append_assoc]
        rfl
      have hshorter : rest.length < length := by
        have hnewline : "\n".length = 1 := rfl
        rw [← hlength, String.length_append, String.length_append]
        omega
      rw [Line.pieces_of_newline hfirst, List.map_cons, List.cons_append]
      exact .of_ofText hfirst hunread
        (ih _ hshorter rest (Console.unread_readLine_ofText hfirst hunread) rfl)
    · rw [Line.pieces_of_notMem hs, List.map_singleton, List.singleton_append]
      exact .of_ofText hs hc (h _ (Console.unread_readLine_ofText hs hc))

/-- **Printed texts are read back piece by piece.** -/
theorem of_printed (n : Nat) (ss : List String) (hc : c.unread = ss.flatMap Line.ofText) :
    ReadsAll table env (n + 1) c ((ss.flatMap Line.pieces).map Line.readBack) := by
  induction ss generalizing c with
  | nil => exact .of_unread_eq_nil n hc
  | cons s ss ih =>
    rw [List.flatMap_cons, List.map_append]
    exact .of_pieces (fun d hd => ih hd) s hc

end ReadsAll

/-! ## Printing -/

def printing (table : FunctionTable) (env : Env Value) (s : String) : Task :=
  ⟨table, env, .print (.string s)⟩

theorem on_eval_print_string (n : Nat) (s : String) {c : Console} (hc : c.Faultless) :
    (eval table (n + 2) env (.print (.string s))).on c =
      some (.ok .unit, c.record (.writing (Line.ofText s))) := by
  simp only [Expr.string, eval, Run.run_bind, Run.run_pure, Value.expectString, Run.run_ofExcept,
    Run.run_writeLine, Console.writeLine_faultless hc]

theorem runAll_printing (table : FunctionTable) (env : Env Value) (n : Nat) (ss : List String)
    {c : Console} (hc : c.Faultless) :
    ∃ d, runAll (n + 2) (ss.map (printing table env)) c = some (ss.map fun _ => .ok .unit, d) ∧
      d.output = c.output ++ ss.flatMap Line.ofText := by
  induction ss generalizing c with
  | nil => exact ⟨c, rfl, (List.append_nil _).symm⟩
  | cons s ss ih =>
    obtain ⟨d, hrun, houtput⟩ := ih (c := c.record (.writing (Line.ofText s)))
      ⟨hc.room, hc.flushFails⟩
    refine ⟨d, ?_, ?_⟩
    · rw [List.map_cons, runAll]
      simp only [printing, on_eval_print_string n s hc, Option.bind_eq_bind, Option.bind_some]
      rw [hrun]
      rfl
    · rw [houtput, Console.output_record, List.append_assoc]
      rfl

/-! ## Main theorem -/

/-- **What is printed is read back, exactly when it can be.**  Printing texts to an output that does
not fail succeeds; with the bytes written as its input, a reader gets a certain list of strings and
then the end of the input; and this list is that of the texts if and only if none of them has a
newline or ends with a carriage return. -/
theorem printed_read_back (table : FunctionTable) (env : Env Value) (n m : Nat) (ss : List String)
    (input : List UInt8) (room : Option Nat) (flushFails : Bool) :
    ∃ d, runAll (n + 2) (ss.map (printing table env)) (.faultless input) =
        some (ss.map fun _ => .ok .unit, d) ∧
      (∃! got, ReadsAll table env (m + 1) (.fresh d.output room flushFails) got) ∧
      (ReadsAll table env (m + 1) (.fresh d.output room flushFails) ss ↔
        ∀ s ∈ ss, '\n' ∉ s.toList ∧ s.toList.getLast? ≠ some '\r') := by
  obtain ⟨d, hrun, houtput⟩ :=
    runAll_printing table env n ss (c := .faultless input) ⟨rfl, rfl⟩
  have hread : ReadsAll table env (m + 1) (.fresh d.output room flushFails)
      ((ss.flatMap Line.pieces).map Line.readBack) := .of_printed m ss houtput
  refine ⟨d, hrun, ⟨_, hread, fun got hgot => hgot.unique hread⟩, ?_⟩
  rw [← Line.map_readBack_eq_self_iff]
  constructor
  · intro h
    exact hread.unique h
  · intro h
    rwa [h] at hread

/-- Texts with a carriage return inside, with nothing, and with a character of several bytes. -/
def faithfulTexts : List String := ["a\rb", "", "\u00E9"]

theorem printed_read_back_faithful :
    ∃ d, runAll 2 (faithfulTexts.map (printing ∅ Env.empty)) (.faultless []) =
        some ([.ok .unit, .ok .unit, .ok .unit], d) ∧
      ReadsAll ∅ Env.empty 1 (.faultless d.output) faithfulTexts ∧
    ∃ d, runAll 2 (["a\r"].map (printing ∅ Env.empty)) (.faultless []) =
        some ([.ok .unit], d) ∧
      ¬ ReadsAll ∅ Env.empty 1 (.faultless d.output) ["a\r"] := by
  obtain ⟨d, hrun, -, hread⟩ := printed_read_back ∅ .empty 0 0 faithfulTexts [] none false
  obtain ⟨d', hrun', -, hread'⟩ := printed_read_back ∅ .empty 0 0 ["a\r"] [] none false
  refine ⟨d, hrun, hread.mpr (by decide), d', hrun', fun h => ?_⟩
  exact (hread'.mp h "a\r" (List.mem_singleton.mpr rfl)).2 rfl

end ExprLang
