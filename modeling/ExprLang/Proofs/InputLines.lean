import ExprLang.Proofs.StreamUses

/-!
# Lines of the input

The input is answered line by line.  No request gets a line twice, none is passed over, and none is
cut, whatever runs ask for lines and however they end.

* `Line.Answers` — what a request is answered from a line, or when there is none.
* `Console.ReadsOn` — the answers given between two consoles come from the next lines in order.
* `Task`, `runAll` — evaluations one after the other on one console; `runAllListed` — the same with a
  list of the requests and prints that are executed.

Principal results: `nextLine_answers` — one request; `Run.Composed.readsOn` — one run;
`answers_from_lines` — any number of runs on one stream.
-/

set_option autoImplicit false

namespace ExprLang

/-! ## One line -/

/-- The line is given with its end; the answer is its text without it. -/
inductive Line.Answers : Option (List UInt8) → Except RunError String → Prop
  | carriageReturn (s : String) : Answers (some (Utf8.encode (s ++ "\r\n"))) (.ok s)
  | newline (s : String) : s.toList.getLast? ≠ some '\r' →
      Answers (some (Utf8.encode (s ++ "\n"))) (.ok s)
  | unterminated (s : String) : s.toList.getLast? ≠ some '\n' →
      Answers (some (Utf8.encode s)) (.ok s)
  | invalid (line : List UInt8) : (∀ s, line ≠ Utf8.encode s) →
      Answers (some line) (.error (.channel .invalidText))
  | endOfInput : Answers none (.error .endOfInput)

namespace Line

theorem chomp_answers (line : String) : Answers (some (Utf8.encode line)) (.ok (chomp line)) := by
  rw [chomp, chompChars]
  split
  · rename_i hnewline
    obtain ⟨text, htext⟩ := List.getLast?_eq_some_iff.mp hnewline
    rw [htext, List.dropLast_concat]
    dsimp only
    split
    · rename_i hreturn
      obtain ⟨start, rfl⟩ := List.getLast?_eq_some_iff.mp hreturn
      have hline : line = String.ofList start ++ "\r\n" := by
        rw [← String.ofList_toList (s := line), htext]
        simp [String.ofList_append]
      rw [hline, List.dropLast_concat]
      exact .carriageReturn _
    · rename_i hreturn
      have hline : line = String.ofList text ++ "\n" := by
        rw [← String.ofList_toList (s := line), htext, String.ofList_append]
      rw [hline]
      refine .newline _ ?_
      rwa [String.toList_ofList]
  · rename_i hnewline
    rw [String.ofList_toList]
    exact .unterminated line hnewline

theorem split_rest (bytes : List UInt8) : split (rest bytes) = (split bytes).drop 1 := by
  by_cases h : bytes = []
  · subst h
    rfl
  · rw [split_of_ne_nil h]
    rfl

end Line

theorem Console.nextLine_answers (unread : List UInt8) :
    Line.Answers (Line.split unread)[0]? (nextLine unread) := by
  unfold nextLine
  split
  · rename_i h
    subst h
    exact .endOfInput
  · rename_i h
    rw [Line.split_of_ne_nil h, List.getElem?_cons_zero]
    split
    · rename_i line hline
      rw [Utf8.decode?_eq_some_iff.mp hline]
      exact Line.chomp_answers line
    · rename_i hline
      refine .invalid _ fun s hs => ?_
      rw [hs, Utf8.decode?_encode] at hline
      cases hline

/-! ## One run -/

namespace Console

/-- Each request was answered from the line whose turn it was, and these lines are gone. -/
def ReadsOn (c d : Console) : Prop :=
  ∃ given : List (Except RunError String), d.answers = c.answers ++ given ∧
    Line.split d.unread = (Line.split c.unread).drop given.length ∧
    ∀ (j : Nat) (answer : Except RunError String), given[j]? = some answer →
      Line.Answers (Line.split c.unread)[j]? answer

theorem ReadsOn.of_eq {c d : Console} (hanswers : d.answers = c.answers)
    (hunread : d.unread = c.unread) : c.ReadsOn d :=
  ⟨[], by simp [hanswers], by simp [hunread], fun j answer h => by simp at h⟩

theorem ReadsOn.trans {c d e : Console} (hcd : c.ReadsOn d) (hde : d.ReadsOn e) : c.ReadsOn e := by
  obtain ⟨first, hanswers, hsplit, hlines⟩ := hcd
  obtain ⟨second, hanswers', hsplit', hlines'⟩ := hde
  refine ⟨first ++ second, ?_, ?_, fun j answer h => ?_⟩
  · rw [hanswers', hanswers, List.append_assoc]
  · rw [hsplit', hsplit, List.drop_drop, List.length_append]
  · by_cases hj : j < first.length
    · rw [List.getElem?_append_left hj] at h
      exact hlines j answer h
    · have hj' : first.length ≤ j := by omega
      rw [List.getElem?_append_right hj'] at h
      have hline := hlines' _ answer h
      rwa [hsplit, List.getElem?_drop, Nat.add_sub_cancel' hj'] at hline

theorem readsOn_readLine (c : Console) : c.ReadsOn c.readLine.2 := by
  refine ⟨[nextLine c.unread], c.answers_readLine, Line.split_rest c.unread, fun j answer h => ?_⟩
  obtain ⟨hj, rfl⟩ := List.getElem?_eq_some_iff.mp h
  obtain rfl : j = 0 := by simpa using hj
  exact nextLine_answers c.unread

/-- Lines are read in turn; nothing else is said. -/
def readingConduct : Conduct where
  step := ReadsOn
  fault _ := True
  refl _ := .of_eq rfl rfl
  trans := ReadsOn.trans

theorem Step.readsOn {α : Type} {s : Console → Except RunError α × Console} (hs : Step s)
    (c : Console) : c.ReadsOn (s c).2 := by
  cases hs with
  | note he => exact .of_eq (answers_record he) rfl
  | readLine => exact c.readsOn_readLine
  | writeLine s => exact .of_eq (c.answers_writeLine s) rfl

end Console

theorem Run.Composed.readsOn {α : Type} {m : Run α} (hm : m.Composed) {c d : Console}
    {r : Except RunError α} (h : m.on c = some (r, d)) : c.ReadsOn d :=
  (hm.obeys (K := Console.readingConduct) (fun hs c => hs.readsOn c) (fun _ => trivial) c r d h).1

/-! ## Many runs -/

/-- An expression with the functions and the environment it is evaluated in. -/
structure Task where
  table : FunctionTable
  env : Env Value
  expr : Expr

/-- Evaluates tasks one after the other on one console, whatever each ends with. -/
def runAll (budget : Nat) : List Task → Console → Option (List (Except RunError Value) × Console)
  | [], c => some ([], c)
  | task :: tasks, c => do
    let (result, c) ← (eval task.table budget task.env task.expr).on c
    let (results, c) ← runAll budget tasks c
    return (result :: results, c)

theorem runAll_readsOn {budget : Nat} {tasks : List Task} {results : List (Except RunError Value)}
    {c d : Console} (h : runAll budget tasks c = some (results, d)) : c.ReadsOn d := by
  induction tasks generalizing c results with
  | nil =>
    cases h
    exact .of_eq rfl rfl
  | cons task tasks ih =>
    obtain ⟨⟨result, c'⟩, hfirst, h⟩ := Option.bind_eq_some_iff.mp h
    obtain ⟨⟨results', d'⟩, hrest, h⟩ := Option.bind_eq_some_iff.mp h
    cases h
    exact ((eval_composed _ _ _ _).readsOn hfirst).trans (ih hrest)

/-- The same runs, with a list of the requests and the prints that are executed in them. -/
def runAllListed (budget : Nat) : List Task → Console → List Use →
    Option (List (Except RunError Value) × Console × List Use)
  | [], c, uses => some ([], c, uses)
  | task :: tasks, c, uses => do
    let (result, c, uses) ← (evalListed task.table budget task.env task.expr).on c uses
    let (results, c, uses) ← runAllListed budget tasks c uses
    return (result :: results, c, uses)

theorem runAll_listed {budget : Nat} {tasks : List Task} {results : List (Except RunError Value)}
    {c d : Console} (h : runAll budget tasks c = some (results, d)) (before : List Use) :
    ∃ more, runAllListed budget tasks c before = some (results, d, before ++ more) ∧
      c.Accounts d more := by
  induction tasks generalizing c results before with
  | nil =>
    cases h
    exact ⟨[], by rw [List.append_nil]; rfl, .refl _⟩
  | cons task tasks ih =>
    obtain ⟨⟨result, c'⟩, hfirst, h⟩ := Option.bind_eq_some_iff.mp h
    obtain ⟨⟨results', d'⟩, hrest, h⟩ := Option.bind_eq_some_iff.mp h
    cases h
    obtain ⟨first, hlisted, haccounts⟩ := (evalListed_lists _ _ _ _).on_eq_some hfirst before
    obtain ⟨second, hlisted', haccounts'⟩ := ih hrest (before ++ first)
    refine ⟨first ++ second, ?_, haccounts.append haccounts'⟩
    rw [List.append_assoc] at hlisted'
    exact Option.bind_eq_some_iff.mpr ⟨_, hlisted, Option.bind_eq_some_iff.mpr ⟨_, hlisted', rfl⟩⟩

/-! ## Main theorem -/

/-- What a request evaluates to is its answer. -/
theorem on_eval_input (table : FunctionTable) (n : Nat) (env : Env Value) (c : Console) :
    (eval table (n + 1) env .input).on c =
      some ((Console.nextLine c.unread).map Value.string, c.readLine.2) := by
  rw [eval, Run.run_bind, Run.run_readLine]
  cases hanswer : Console.nextLine c.unread <;> simp [Console.readLine, hanswer, Except.map]

theorem on_evalListed_input (table : FunctionTable) (n : Nat) (env : Env Value) (c : Console)
    (before : List Use) :
    (evalListed table (n + 1) env .input).on c before =
      some ((Console.nextLine c.unread).map Value.string, c.readLine.2,
        before ++ [.read (Console.nextLine c.unread)]) := by
  have hread : Listed.readLine.on c before =
      some (Console.nextLine c.unread, c.readLine.2, before ++ [.read (Console.nextLine c.unread)]) :=
    rfl
  rw [evalListed, Listed.run_bind, hread]
  cases Console.nextLine c.unread <;> rfl

/-- **No line is lost, repeated or cut.**  Every request for input evaluates to its answer, and is
listed with it.  Over any number of runs on one stream, however they end, the requests listed are all
that were answered; they are answered from the lines in order, and the lines without a request are
left. -/
theorem answers_from_lines :
    (∀ (table : FunctionTable) (budget : Nat) (env : Env Value) (c d : Console)
      (r : Except RunError Value), (eval table budget env .input).on c = some (r, d) →
      ∃ answer, r = answer.map Value.string ∧ d.answers = c.answers ++ [answer] ∧
        ∀ before, (evalListed table budget env .input).on c before =
          some (r, d, before ++ [.read answer])) ∧
    ∀ (input : List UInt8) (room : Option Nat) (flushFails : Bool) (budget : Nat)
      (tasks : List Task) (results : List (Except RunError Value)) (d : Console),
      runAll budget tasks (.fresh input room flushFails) = some (results, d) →
      ∃ uses, runAllListed budget tasks (.fresh input room flushFails) [] =
          some (results, d, uses) ∧
        d.answers = Use.answers uses ∧
        (∀ (j : Nat) (answer : Except RunError String), (Use.answers uses)[j]? = some answer →
          Line.Answers (Line.split input)[j]? answer) ∧
        d.unread = ((Line.split input).drop (Use.answers uses).length).flatten := by
  constructor
  · intro table budget env c d r h
    cases budget with
    | zero => cases h
    | succ n =>
      rw [on_eval_input] at h
      cases h
      exact ⟨_, rfl, c.answers_readLine, fun before => on_evalListed_input table n env c before⟩
  intro input room flushFails budget tasks results d h
  obtain ⟨uses, hlisted, haccounts⟩ := runAll_listed h []
  obtain ⟨given, hgiven, hsplit, hlines⟩ := runAll_readsOn h
  have hanswers : d.answers = Use.answers uses := haccounts.answers
  have huses : given = Use.answers uses := hgiven.symm.trans hanswers
  subst huses
  refine ⟨uses, hlisted, hanswers, hlines, ?_⟩
  calc d.unread
    _ = (Line.split d.unread).flatten := (Line.flatten_split _).symm
    _ = ((Line.split input).drop (Use.answers uses).length).flatten := congrArg List.flatten hsplit

/-- A carriage return before the newline, an empty line, one that is no text, and an unterminated
one with a carriage return inside. -/
def mixedInput : List UInt8 :=
  Utf8.encode "a\r\n" ++ Utf8.encode "\n" ++ [255, Line.newline] ++ Utf8.encode "b\rc"

/-- Each run fails, the last one because the lines are used up; the second one prints first. -/
def failingTasks : List Task :=
  [⟨∅, Env.empty, .binop .add .input .input⟩,
    ⟨∅, Env.empty, .letIn "asked" (.print (.string "?")) (.print .input)⟩,
    ⟨∅, Env.empty, .cast .int .input⟩, ⟨∅, Env.empty, .input⟩]

/-- What is executed in them: five requests on four lines. -/
def failingUses : List Use :=
  [.read (.ok "a"), .read (.ok ""), .print "?", .read (.error (.channel .invalidText)),
    .read (.ok "b\rc"), .read (.error .endOfInput)]

theorem answers_from_lines_mixed :
    (∃ d, (eval ∅ 1 Env.empty .input).on (.faultless mixedInput) = some (.ok (.string "a"), d) ∧
      ∃ answer, Except.ok (.string "a") = answer.map Value.string ∧ d.answers = [] ++ [answer] ∧
        ∀ before, (evalListed ∅ 1 Env.empty .input).on (.faultless mixedInput) before =
          some (.ok (.string "a"), d, before ++ [.read answer])) ∧
    ∃ results d, runAll 3 failingTasks (.faultless mixedInput) = some (results, d) ∧
      results = [.error (.typeError .int (.string "a")), .error (.channel .invalidText),
        .error (.castFailure (.string "b\rc") .int), .error .endOfInput] ∧
      runAllListed 3 failingTasks (.faultless mixedInput) [] = some (results, d, failingUses) ∧
      d.answers = Use.answers failingUses ∧
      Line.Answers (Line.split mixedInput)[3]? (.ok "b\rc") ∧
      d.unread = ((Line.split mixedInput).drop 5).flatten := by
  obtain ⟨hinput, hlines⟩ := answers_from_lines
  constructor
  · exact ⟨_, rfl, hinput ∅ 1 Env.empty (.faultless mixedInput) _ (.ok (.string "a")) rfl⟩
  · obtain ⟨uses, hlisted, hanswers, hfrom, hunread⟩ :=
      hlines mixedInput none false 3 failingTasks _ _ rfl
    obtain rfl : uses = failingUses := by
      have hend := Option.some.inj hlisted
      exact (congrArg (fun listed => listed.2.2) hend).symm
    exact ⟨_, _, rfl, rfl, hlisted, hanswers, hfrom 3 _ rfl, hunread⟩

end ExprLang
