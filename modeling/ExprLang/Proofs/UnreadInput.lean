import ExprLang.Proofs.Composed

/-!
# Input not read

A run takes whole lines off its input and nothing else.  What it leaves has no part in what it did:
with anything else in its place the run is the same, so nothing is looked at before it is read.  Only
a last line without its newline, and the end of the input, tell a run that nothing follows.

* `Line.Terminated` — bytes that end with a newline, or no bytes.
* `Console.withUnread` — a console with another input.
* `Run.Settled` — what a finished run says about the input it used; `Run.SettlesInput` — all its
  runs do.

Principal results: `Composed.settlesInput` — every composed run settles its input;
`unread_irrelevant` — input not yet read cannot influence an evaluation.
-/

set_option autoImplicit false

namespace ExprLang

/-! ## Lines and what follows them -/

namespace Line

variable {text bytes : List UInt8}

theorem ne_newline_of_notMem (h : newline ∉ text) : ∀ b ∈ text, (b != newline) = true := by
  intro b hb
  simpa using ne_of_mem_of_not_mem hb h

theorem first_of_line (h : newline ∉ text) (more : List UInt8) :
    first (text ++ newline :: more) = text ++ [newline] := by
  have hpass := ne_newline_of_notMem h
  simp [first, List.takeWhile_append_of_pos hpass, List.dropWhile_append_of_pos hpass]

theorem rest_of_line (h : newline ∉ text) (more : List UInt8) :
    rest (text ++ newline :: more) = more := by
  simp [rest, List.dropWhile_append_of_pos (ne_newline_of_notMem h)]

theorem rest_of_notMem (h : newline ∉ bytes) : rest bytes = [] := by
  rw [rest, ← List.append_nil bytes, List.dropWhile_append_of_pos (ne_newline_of_notMem h)]
  rfl

def Terminated (bytes : List UInt8) : Prop := bytes = [] ∨ bytes.getLast? = some newline

theorem Terminated.of_append {first second : List UInt8} (h : Terminated (first ++ second)) :
    Terminated second := by
  by_cases hnil : second = []
  · exact .inl hnil
  · rcases h with h | h
    · exact absurd (List.append_eq_nil_iff.mp h).2 hnil
    · rw [List.getLast?_append_of_ne_nil _ hnil] at h
      exact .inr h

theorem Terminated.append {first second : List UInt8} (h : Terminated first)
    (h' : Terminated second) : Terminated (first ++ second) := by
  by_cases hnil : second = []
  · rwa [hnil, List.append_nil]
  · rw [Terminated, List.getLast?_append_of_ne_nil _ hnil]
    exact .inr (h'.resolve_left hnil)

theorem Terminated.eq_nil (h : Terminated bytes) (hmem : newline ∉ bytes) : bytes = [] := by
  rcases h with h | h
  · exact h
  · exact absurd (List.mem_of_getLast? h) hmem

end Line

namespace Console

def withUnread (c : Console) (bytes : List UInt8) : Console := { c with unread := bytes }

theorem nextLine_eq_endOfInput {bytes : List UInt8} :
    nextLine bytes = .error .endOfInput ↔ bytes = [] := by
  unfold nextLine
  constructor
  · intro h
    by_contra hne
    rw [if_neg hne] at h
    split at h <;> cases h
  · intro h
    rw [if_pos h]

/-- A line up to its newline is answered in the same way, whatever follows. -/
theorem readLine_of_line {text : List UInt8} (h : Line.newline ∉ text) (c : Console)
    (more : List UInt8) :
    (c.withUnread (text ++ Line.newline :: more)).readLine =
      (nextLine (text ++ [Line.newline]),
        (c.withUnread more).record (.reading (nextLine (text ++ [Line.newline])))) := by
  have hanswer : nextLine (text ++ Line.newline :: more) = nextLine (text ++ [Line.newline]) := by
    simp [nextLine, Line.first_of_line h]
  simp only [readLine, withUnread, hanswer, Line.rest_of_line h]

theorem writeLine_ne_endOfInput (c : Console) (s : String) :
    (c.writeLine s).1 ≠ .error .endOfInput := by
  intro h
  have hfails := c.writeLine_fails s
  rw [h] at hfails
  rcases hfails with h | h <;> cases h

end Console

/-! ## Steps -/

variable {α β : Type}

namespace Run

/-- A run from `c` that ended with `r` and left `d` has used these bytes of the input.  If it used
whole lines, and did not ask for one in vain, it cannot tell what follows. -/
structure Settled (m : Run α) (c : Console) (r : Except RunError α) (d : Console)
    (used : List UInt8) : Prop where
  unread : c.unread = used ++ d.unread
  whole : Line.Terminated used ∨ d.unread = []
  exhausted : r = .error .endOfInput → d.unread = []
  repeats : r ≠ .error .endOfInput → Line.Terminated used → ∀ more,
    m.on (c.withUnread (used ++ more)) = some (r, d.withUnread more)

def SettlesInput (m : Run α) : Prop :=
  ∀ c r d, m.on c = some (r, d) → ∃ used, m.Settled c r d used

/-- A run that does not use the input settles it. -/
theorem Settled.of_unread_eq {m : Run α} {c d : Console} {r : Except RunError α}
    (hunread : d.unread = c.unread) (hr : r ≠ .error .endOfInput)
    (h : ∀ more, m.on (c.withUnread more) = some (r, d.withUnread more)) :
    m.Settled c r d [] where
  unread := hunread.symm
  whole := .inl (.inl rfl)
  exhausted hr' := absurd hr' hr
  repeats _ _ more := h more

theorem settlesInput_unfinished : (unfinished : Run α).SettlesInput := by
  intro c r d h
  cases h

theorem settlesInput_ofExcept {r : Except RunError α} (hr : Computed r) :
    (ofExcept r).SettlesInput := by
  intro c r' d h
  cases h
  refine ⟨[], .of_unread_eq rfl ?_ fun more => rfl⟩
  rintro rfl
  cases hr

theorem settlesInput_readLine : readLine.SettlesInput := by
  intro c r d h
  by_cases hline : Line.newline ∈ c.unread
  · obtain ⟨text, left, hunread, htext⟩ := List.eq_append_cons_of_mem hline
    have hc : c = c.withUnread (text ++ Line.newline :: left) := by
      rw [← hunread]
      rfl
    rw [run_readLine, hc, Console.readLine_of_line htext] at h
    cases h
    refine ⟨text ++ [Line.newline], ?_, .inl (.inr ?_), ?_, fun _ _ more => ?_⟩
    · rw [hunread, List.append_assoc]
      rfl
    · rw [List.getLast?_concat]
    · intro hr
      have hnil := Console.nextLine_eq_endOfInput.mp hr
      simp at hnil
    · rw [List.append_assoc, List.singleton_append, run_readLine, Console.readLine_of_line htext]
      rfl
  · cases h
    have hleft : Line.rest c.unread = [] := Line.rest_of_notMem hline
    refine ⟨c.unread, ?_, .inr hleft, fun _ => hleft, fun hr hwhole => ?_⟩
    · show c.unread = c.unread ++ Line.rest c.unread
      rw [hleft, List.append_nil]
    · -- whole lines without a newline are no lines, and then the answer was the end of the input
      exact absurd (Console.nextLine_eq_endOfInput.mpr (hwhole.eq_nil hline)) hr

theorem settlesInput_step {s : Console → Except RunError α × Console} (hs : Console.Step s) :
    (ofStep s).SettlesInput := by
  cases hs with
  | note he =>
    intro c r d h
    cases h
    exact ⟨[], .of_unread_eq rfl (by simp) fun more => rfl⟩
  | readLine => exact settlesInput_readLine
  | writeLine t =>
    intro c r d h
    cases h
    exact ⟨[], .of_unread_eq rfl (c.writeLine_ne_endOfInput t) fun more => rfl⟩

theorem Settled.bind_error {m : Run α} {c d : Console} {e : RunError} {used : List UInt8}
    (h : m.Settled c (.error e) d used) (k : α → Run β) :
    (m >>= k).Settled c (.error e) d used where
  unread := h.unread
  whole := h.whole
  exhausted := by
    rintro ⟨⟩
    exact h.exhausted rfl
  repeats hr hwhole more := by
    have he : (.error e : Except RunError α) ≠ .error .endOfInput := by
      rintro ⟨⟩
      exact hr rfl
    rw [run_bind, h.repeats he hwhole more]

/-- If the first part could tell that nothing follows, the second one has used nothing. -/
theorem Settled.bind {m : Run α} {k : α → Run β} {c c' d : Console} {a : α}
    {r : Except RunError β} {used used' : List UInt8} (h : m.Settled c (.ok a) c' used)
    (h' : (k a).Settled c' r d used') : (m >>= k).Settled c r d (used ++ used') := by
  have hnothing : c'.unread = [] → used' = [] ∧ d.unread = [] := by
    rw [h'.unread]
    exact List.append_eq_nil_iff.mp
  refine ⟨?_, ?_, h'.exhausted, fun hr hboth more => ?_⟩
  · rw [h.unread, h'.unread, List.append_assoc]
  · rcases h.whole with hwhole | hleft
    · exact h'.whole.imp_left hwhole.append
    · exact .inr (hnothing hleft).2
  · have hwhole : Line.Terminated used := by
      rcases h.whole with hwhole | hleft
      · exact hwhole
      · rwa [(hnothing hleft).1, List.append_nil] at hboth
    rw [List.append_assoc, run_bind, h.repeats (by simp) hwhole (used' ++ more)]
    exact h'.repeats hr hboth.of_append more

theorem SettlesInput.bind {m : Run α} {k : α → Run β} (hm : m.SettlesInput)
    (hk : ∀ a, (k a).SettlesInput) : (m >>= k).SettlesInput := by
  intro c r d h
  rcases run_bind_eq_some.mp h with ⟨e, hfirst, rfl⟩ | ⟨a, c', hfirst, hrest⟩
  · obtain ⟨used, hused⟩ := hm c (.error e) d hfirst
    exact ⟨used, hused.bind_error k⟩
  · obtain ⟨used, hused⟩ := hm c (.ok a) c' hfirst
    obtain ⟨used', hused'⟩ := hk a c' r d hrest
    exact ⟨used ++ used', hused.bind hused'⟩

/-- **Every composed run settles its input.** -/
theorem Composed.settlesInput {m : Run α} (hm : m.Composed) : m.SettlesInput := by
  induction hm with
  | unfinished => exact settlesInput_unfinished
  | ofExcept hr => exact settlesInput_ofExcept hr
  | step hs => exact settlesInput_step hs
  | bind _ _ ihm ihk => exact ihm.bind ihk

end Run

/-! ## Main theorem -/

/-- **Input not yet read cannot influence a run.**  What a run used and what it left make up its
input.  If it used whole lines, it takes the same course with any other bytes behind them, text or
not, and leaves just these; if it was told that the input had ended, nothing was left. -/
theorem unread_irrelevant {table : FunctionTable} {budget : Nat} {env : Env Value} {e : Expr}
    {input : List UInt8} {room : Option Nat} {flushFails : Bool} {r : Except RunError Value}
    {d : Console} (h : (eval table budget env e).on (.fresh input room flushFails) = some (r, d)) :
    ∃ used, input = used ++ d.unread ∧
      (r ≠ .error .endOfInput → Line.Terminated used → ∀ more, ∃ d',
        (eval table budget env e).on (.fresh (used ++ more) room flushFails) = some (r, d') ∧
          d'.output = d.output ∧ d'.unread = more) ∧
      (r = .error .endOfInput → d.unread = []) := by
  obtain ⟨used, hsettled⟩ := (eval_composed table budget env e).settlesInput _ r d h
  refine ⟨used, hsettled.unread, fun hr hwhole more => ?_, hsettled.exhausted⟩
  exact ⟨d.withUnread more, hsettled.repeats hr hwhole more, rfl, rfl⟩

/-- A run that reads one of two lines, on an output that takes a single byte, would not notice bytes
that are no text; one that reads two lines where there is one has left nothing. -/
theorem unread_irrelevant_oneLine :
    (eval ∅ 2 Env.empty (.print .input)).on (.fresh (Utf8.encode "a\nb") (some 1) false) =
      some (.error (.channel .closed),
        ⟨Utf8.encode "b", some 0, false, [.writing (Utf8.encode "a"), .reading (.ok "a")]⟩) ∧
    (∃ d', (eval ∅ 2 Env.empty (.print .input)).on
        (.fresh (Utf8.encode "a\n" ++ [255]) (some 1) false) =
          some (.error (.channel .closed), d') ∧
      d'.output = Utf8.encode "a" ∧ d'.unread = [255]) ∧
    ∃ d, (eval ∅ 2 Env.empty (.concat [.input, .input])).on (.faultless (Utf8.encode "a")) =
        some (.error .endOfInput, d) ∧ d.unread = [] := by
  have hcut : (eval ∅ 2 Env.empty (.print .input)).on
      (.fresh (Utf8.encode "a\nb") (some 1) false) = some (.error (.channel .closed),
        ⟨Utf8.encode "b", some 0, false, [.writing (Utf8.encode "a"), .reading (.ok "a")]⟩) := rfl
  have hvain : (eval ∅ 2 Env.empty (.concat [.input, .input])).on (.faultless (Utf8.encode "a")) =
      some (.error .endOfInput,
        ⟨[], none, false, [.reading (.error .endOfInput), .reading (.ok "a")]⟩) := rfl
  obtain ⟨used, hused, hrepeats, -⟩ := unread_irrelevant hcut
  obtain ⟨-, -, -, hexhausted⟩ := unread_irrelevant hvain
  obtain rfl : Utf8.encode "a\n" = used := by
    have hsame : Utf8.encode "a\n" ++ Utf8.encode "b" = used ++ Utf8.encode "b" := hused
    exact List.append_cancel_right hsame
  exact ⟨hcut, hrepeats (by simp) (.inr rfl) [255], _, hvain, hexhausted rfl⟩

end ExprLang
