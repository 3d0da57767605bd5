import ExprLang.Proofs.Observation
import ExprLang.Proofs.StreamUses

/-!
# Faults of the output

A run on an output with faults is compared with the run of the same expression on one without.  An
output that takes only so many bytes cuts what is written there and ends the run; one that fails to
flush ends the run after its first line.  Nothing else is different.

* `Console.Faultless` — no limit, and flushing succeeds.
* `limitCoupling`, `flushCoupling` — the two comparisons, step by step.

Principal results: `Accounts.output_faultless` — without faults the output is the lines of the prints
executed; `faults_truncate` — faults do nothing but cut runs off.
-/

set_option autoImplicit false

namespace ExprLang

namespace Console

structure Faultless (c : Console) : Prop where
  room : c.room = none
  flushFails : c.flushFails = false

/-! ## Steps -/

theorem output_eq_nil_of_writings {c : Console} (h : c.writings = []) : c.output = [] := by
  rw [output_eq_flatten, h, List.flatten_nil]

/-- A line has at least its newline. -/
theorem output_ne_nil_of_head? {c : Console} {s : String}
    (h : c.writings.head? = some (Line.ofText s)) : c.output ≠ [] := by
  obtain ⟨later, hlater⟩ := List.head?_eq_some_iff.mp h
  simp [output_eq_flatten, hlater, Line.ofText]

theorem writeLine_faultless {c : Console} (hc : c.Faultless) (s : String) :
    c.writeLine s = (.ok (), c.record (.writing (Line.ofText s))) := by
  obtain ⟨hroom, hflush⟩ := hc
  simp [writeLine, accepted, record, hroom, hflush, Line.ofText]

/-- A line that fits. -/
theorem writeLine_within {c : Console} (hc : c.Faultless) {n : Nat} {s : String}
    (hn : (Line.ofText s).length ≤ n) :
    ({ c with room := some n } : Console).writeLine s =
      (.ok (), { c with room := some (n - (Line.ofText s).length) }.record
        (.writing (Line.ofText s))) := by
  have htaken : accepted (some n) (Line.ofText s) = Line.ofText s := List.take_of_length_le hn
  unfold Line.ofText at htaken
  simp [writeLine, htaken, record, hc.flushFails, Line.ofText]

/-- A line that is cut. -/
theorem writeLine_beyond (c : Console) {n : Nat} {s : String} (hn : n < (Line.ofText s).length) :
    ({ c with room := some n } : Console).writeLine s =
      (.error (.channel .closed), { c with room := some 0 }.record
        (.writing ((Line.ofText s).take n))) := by
  have htaken : (accepted (some n) (Line.ofText s)).length = n := by
    simp only [accepted, List.length_take]
    omega
  unfold Line.ofText at htaken hn
  simp only [writeLine, htaken, if_pos hn, Option.map_some, Nat.sub_self]
  rfl

theorem writeLine_unflushed {c : Console} (hc : c.Faultless) (s : String) :
    ({ c with flushFails := true } : Console).writeLine s =
      (.error (.channel .flushFailed), { c with flushFails := true }.record
        (.writing (Line.ofText s))) := by
  obtain ⟨hroom, -⟩ := hc
  simp [writeLine, accepted, record, hroom, Line.ofText]

variable {α : Type} {s : Console → Except RunError α × Console}

theorem Step.faultless (hs : Step s) {c : Console} (hc : c.Faultless) : (s c).2.Faultless := by
  cases hs with
  | note he => exact ⟨hc.room, hc.flushFails⟩
  | readLine => exact ⟨hc.room, hc.flushFails⟩
  | writeLine t => exact ⟨by simp [Console.writeLine, record, hc.room], hc.flushFails⟩

theorem Step.unread_suffix (hs : Step s) (c : Console) : (s c).2.unread <:+ c.unread := by
  cases hs with
  | note he => exact List.suffix_refl _
  | readLine => exact ⟨Line.first c.unread, Line.first_append_rest c.unread⟩
  | writeLine t => exact List.suffix_refl _

theorem Step.writings_prefix (hs : Step s) (c : Console) : c.writings <+: (s c).2.writings := by
  cases hs with
  | note he => exact ⟨[], by rw [writings_record he, List.append_nil]⟩
  | readLine => exact ⟨[], by rw [writings_readLine, List.append_nil]⟩
  | writeLine t => exact ⟨_, (writings_writeLine c t).symm⟩

theorem Step.output_prefix (hs : Step s) (c : Console) : c.output <+: (s c).2.output := by
  obtain ⟨more, hmore⟩ := hs.writings_prefix c
  rw [output_eq_flatten, output_eq_flatten, ← hmore, List.flatten_append]
  exact List.prefix_append _ _

/-! ## Prints -/

variable {input : List UInt8} {d : Console} {uses : List Use}

theorem Accounts.writings_faultless (h : (faultless input).Accounts d uses) :
    d.writings = (Use.texts uses).map Line.ofText :=
  h.writings rfl

/-- Without faults the output is what the prints executed put there, each its string and a newline. -/
theorem Accounts.output_faultless (h : (faultless input).Accounts d uses) :
    d.output = (Use.texts uses).flatMap Line.ofText := by
  rw [output_eq_flatten, h.writings_faultless, List.flatMap_def]

theorem Accounts.exists_first_print (h : (faultless input).Accounts d uses) {t : String}
    (hfirst : d.writings.head? = some (Line.ofText t)) :
    ∃ s, (Use.texts uses).head? = some s ∧ Line.ofText s = Line.ofText t := by
  rw [h.writings_faultless, List.head?_map] at hfirst
  exact Option.map_eq_some_iff.mp hfirst

end Console

/-! ## The two comparisons -/

/-- On the second console the output takes `limit` bytes in all. -/
def limitCoupling (limit : Nat) : Coupling where
  inStep c c' := c.Faultless ∧ c.output.length ≤ limit ∧
    c' = { c with room := some (limit - c.output.length) }
  parted c e d := e = .channel .closed ∧ limit < c.output.length ∧
    d.output = c.output.take limit ∧ c.unread <:+ d.unread
  keeps := by
    rintro α s c c' hs ⟨hc, hlen, rfl⟩
    have hc' := hs.faultless hc
    cases hs with
    | @note e he =>
      have hout : (c.record e).output = c.output := (c.alike_record he).output
      exact .inl ⟨rfl, hc', by rwa [hout], by rw [hout]; rfl⟩
    | readLine =>
      have hout : c.readLine.2.output = c.output := c.output_readLine
      exact .inl ⟨rfl, hc', by rwa [hout], by rw [hout]; rfl⟩
    | writeLine t =>
      have hplain : c.writeLine t = (.ok (), c.record (.writing (Line.ofText t))) :=
        Console.writeLine_faultless hc t
      have hout : (c.record (.writing (Line.ofText t))).output = c.output ++ Line.ofText t :=
        c.output_record _
      simp only [hplain] at hc' ⊢
      -- the line fits, or the runs part here, with the part of it that fits
      by_cases hfit : (Line.ofText t).length ≤ limit - c.output.length
      · rw [Console.writeLine_within hc hfit, hout, List.length_append]
        refine .inl ⟨rfl, hc', by omega, ?_⟩
        rw [← Nat.sub_sub]
        rfl
      · rw [Console.writeLine_beyond c (by omega)]
        refine .inr ⟨_, rfl, rfl, ?_, ?_, List.suffix_refl _⟩
        · rw [hout, List.length_append]
          omega
        · rw [hout, List.take_append, List.take_of_length_le hlen, Console.output_record]
          rfl
  lasts := by
    rintro α s c d e hs ⟨rfl, hlen, hout, hunread⟩
    obtain ⟨more, hmore⟩ := hs.output_prefix c
    refine ⟨rfl, ?_, ?_, (hs.unread_suffix c).trans hunread⟩
    · rw [← hmore, List.length_append]
      omega
    · rw [← hmore, hout, List.take_append_of_le_length (Nat.le_of_lt hlen)]

/-- On the second console no flush succeeds. -/
def flushCoupling : Coupling where
  inStep c c' := c.Faultless ∧ c.writings = [] ∧ c' = { c with flushFails := true }
  parted c e d := e = .channel .flushFailed ∧
    (∃ t, c.writings.head? = some (Line.ofText t) ∧ d.output = Line.ofText t) ∧
    c.unread <:+ d.unread
  keeps := by
    rintro α s c c' hs ⟨hc, hnone, rfl⟩
    have hc' := hs.faultless hc
    cases hs with
    | note he => exact .inl ⟨rfl, hc', by rw [Console.writings_record he, hnone], rfl⟩
    | readLine => exact .inl ⟨rfl, hc', by rw [Console.writings_readLine, hnone], rfl⟩
    | writeLine t =>
      -- the first line of all: it is written, and then the runs part
      have hout : c.output = [] := Console.output_eq_nil_of_writings hnone
      have hplain : (c.writeLine t).2.writings = [Line.ofText t] := by
        rw [Console.writings_writeLine, hnone, hc.room]
        rfl
      simp only [Console.writeLine_unflushed hc]
      refine .inr ⟨_, rfl, rfl, ⟨t, ?_, ?_⟩, List.suffix_refl _⟩
      · rw [hplain, List.head?_singleton]
      · rw [Console.output_record]
        show c.output ++ Line.ofText t = Line.ofText t
        rw [hout, List.nil_append]
  lasts := by
    rintro α s c d e hs ⟨rfl, ⟨t, hfirst, hout⟩, hunread⟩
    obtain ⟨more, hmore⟩ := hs.writings_prefix c
    refine ⟨rfl, ⟨t, ?_, hout⟩, (hs.unread_suffix c).trans hunread⟩
    rw [← hmore, List.head?_append, hfirst]
    rfl

/-! ## Composed runs -/

namespace Run.Composed

variable {m : Run Value} {input : List UInt8} {r : Except RunError Value} {d : Console}

theorem seen_of_fits (hm : m.Composed) (h : m.on (.faultless input) = some (r, d)) {limit : Nat}
    (hlen : d.output.length ≤ limit) :
    m.seen (.fresh input (some limit) false) = some ⟨r, d.output, d.unread⟩ := by
  obtain ⟨r', d', hlimited, hends⟩ := hm.coupled (limitCoupling limit) (.faultless input)
    (.fresh input (some limit) false) ⟨⟨rfl, rfl⟩, Nat.zero_le limit, rfl⟩ r d h
  rw [seen, hlimited]
  rcases hends with ⟨rfl, -, -, rfl⟩ | ⟨e, -, -, hlong, -⟩
  · rfl
  · omega

theorem seen_of_long (hm : m.Composed) (h : m.on (.faultless input) = some (r, d)) {limit : Nat}
    (hlen : limit < d.output.length) :
    ∃ left, m.seen (.fresh input (some limit) false) =
      some ⟨.error (.channel .closed), d.output.take limit, left⟩ ∧ d.unread <:+ left := by
  obtain ⟨r', d', hlimited, hends⟩ := hm.coupled (limitCoupling limit) (.faultless input)
    (.fresh input (some limit) false) ⟨⟨rfl, rfl⟩, Nat.zero_le limit, rfl⟩ r d h
  rw [seen, hlimited]
  rcases hends with ⟨-, -, hshort, -⟩ | ⟨e, rfl, rfl, -, hout, hleft⟩
  · omega
  · rw [← hout]
    exact ⟨d'.unread, rfl, hleft⟩

theorem seen_of_silent (hm : m.Composed) (h : m.on (.faultless input) = some (r, d))
    (hsilent : d.output = []) :
    m.seen (.fresh input none true) = some ⟨r, [], d.unread⟩ := by
  obtain ⟨r', d', hfaulty, hends⟩ := hm.coupled flushCoupling (.faultless input)
    (.fresh input none true) ⟨⟨rfl, rfl⟩, rfl, rfl⟩ r d h
  rw [seen, hfaulty]
  rcases hends with ⟨rfl, -, -, rfl⟩ | ⟨e, -, -, ⟨t, hfirst, -⟩, -⟩
  · rw [← hsilent]
    rfl
  · exact absurd hsilent (Console.output_ne_nil_of_head? hfirst)

theorem seen_of_loud (hm : m.Composed) (h : m.on (.faultless input) = some (r, d))
    (hloud : d.output ≠ []) :
    ∃ s left, d.writings.head? = some (Line.ofText s) ∧
      m.seen (.fresh input none true) =
        some ⟨.error (.channel .flushFailed), Line.ofText s, left⟩ ∧ d.unread <:+ left := by
  obtain ⟨r', d', hfaulty, hends⟩ := hm.coupled flushCoupling (.faultless input)
    (.fresh input none true) ⟨⟨rfl, rfl⟩, rfl, rfl⟩ r d h
  rw [seen, hfaulty]
  rcases hends with ⟨-, -, hnone, -⟩ | ⟨e, rfl, rfl, ⟨t, hfirst, hout⟩, hleft⟩
  · exact absurd (Console.output_eq_nil_of_writings hnone) hloud
  · exact ⟨t, d'.unread, hfirst, by rw [← hout]; rfl, hleft⟩

end Run.Composed

/-! ## Main theorem -/

/-- **Faults of the output only cut a run off.**  Without faults the output is the lines of the
prints that are executed.  Compared with that run, one on a limited output is the same if everything
fits, and writes what fits and fails if not; one whose flushes fail is the same if nothing is written,
and ends with the line of the first print if something is. -/
theorem faults_truncate {table : FunctionTable} {budget : Nat} {env : Env Value} {e : Expr}
    {input : List UInt8} {r : Except RunError Value} {d : Console}
    (h : (eval table budget env e).on (.faultless input) = some (r, d)) :
    ∃ uses, (evalListed table budget env e).on (.faultless input) [] = some (r, d, uses) ∧
      d.output = (Use.texts uses).flatMap Line.ofText ∧
      (∀ limit, d.output.length ≤ limit →
        (eval table budget env e).seen (.fresh input (some limit) false) =
          some ⟨r, d.output, d.unread⟩) ∧
      (∀ limit, limit < d.output.length →
        ∃ left, (eval table budget env e).seen (.fresh input (some limit) false) =
          some ⟨.error (.channel .closed), d.output.take limit, left⟩ ∧ d.unread <:+ left) ∧
      (d.output = [] →
        (eval table budget env e).seen (.fresh input none true) = some ⟨r, [], d.unread⟩) ∧
      (d.output ≠ [] →
        ∃ s left, (Use.texts uses).head? = some s ∧ d.writings.head? = some (Line.ofText s) ∧
          (eval table budget env e).seen (.fresh input none true) =
            some ⟨.error (.channel .flushFailed), Line.ofText s, left⟩ ∧ d.unread <:+ left) := by
  have hcomposed : (eval table budget env e).Composed := eval_composed table budget env e
  obtain ⟨uses, hlisted, haccounts⟩ := (evalListed_lists table budget env e).on_eq_some h []
  refine ⟨uses, hlisted, haccounts.output_faultless, fun limit hlen => hcomposed.seen_of_fits h hlen,
    fun limit hlen => hcomposed.seen_of_long h hlen, hcomposed.seen_of_silent h, fun hloud => ?_⟩
  obtain ⟨t, left, hfirst, hseen, hleft⟩ := hcomposed.seen_of_loud h hloud
  obtain ⟨s, hs, hst⟩ := haccounts.exists_first_print hfirst
  rw [← hst] at hfirst hseen
  exact ⟨s, left, hs, hfirst, hseen, hleft⟩

/-- A line with a character of two bytes, and then a line of the input. -/
def greetAndEcho : Expr :=
  .letIn "greeting" (.print (.string "é")) (.letIn "line" .input (.print (.var "line")))

/-- What its run leaves. -/
def greeted : Console where
  unread := Utf8.encode "y"
  room := none
  flushFails := false
  events := [.writing (Line.ofText "x"), .reading (.ok "x"), .writing (Line.ofText "é")]

/-- What is executed in it. -/
def greetingUses : List Use := [.print "é", .read (.ok "x"), .print "x"]

/-- The run has room enough, is cut within the character, and fails to flush; a run without output
does not. -/
theorem faults_truncate_greetAndEcho :
    (eval ∅ 4 Env.empty greetAndEcho).on (.faultless (Utf8.encode "x\ny")) =
      some (.ok .unit, greeted) ∧
    (evalListed ∅ 4 Env.empty greetAndEcho).on (.faultless (Utf8.encode "x\ny")) [] =
      some (.ok .unit, greeted, greetingUses) ∧
    greeted.output = (Use.texts greetingUses).flatMap Line.ofText ∧
    (eval ∅ 4 Env.empty greetAndEcho).seen (.fresh (Utf8.encode "x\ny") (some 5) false) =
      some ⟨.ok .unit, Utf8.encode "é\nx\n", Utf8.encode "y"⟩ ∧
    (∃ left, (eval ∅ 4 Env.empty greetAndEcho).seen
        (.fresh (Utf8.encode "x\ny") (some 1) false) =
          some ⟨.error (.channel .closed), [195], left⟩ ∧ Utf8.encode "y" <:+ left) ∧
    (∃ s left, some "é" = some s ∧ some (Line.ofText "é") = some (Line.ofText s) ∧
      (eval ∅ 4 Env.empty greetAndEcho).seen (.fresh (Utf8.encode "x\ny") none true) =
        some ⟨.error (.channel .flushFailed), Line.ofText s, left⟩ ∧ Utf8.encode "y" <:+ left) ∧
    (eval ∅ 1 Env.empty .input).seen (.fresh (Utf8.encode "x\ny") none true) =
      some ⟨.ok (.string "x"), [], Utf8.encode "y"⟩ := by
  have hloudRun : (eval ∅ 4 Env.empty greetAndEcho).on (.faultless (Utf8.encode "x\ny")) =
      some (.ok .unit, greeted) := rfl
  have hsilentRun : (eval ∅ 1 Env.empty .input).on (.faultless (Utf8.encode "x\ny")) =
      some (.ok (.string "x"), ⟨Utf8.encode "y", none, false, [.reading (.ok "x")]⟩) := rfl
  obtain ⟨uses, hlisted, houtput, hfits, hcut, -, hloud⟩ := faults_truncate hloudRun
  obtain ⟨-, -, -, -, -, hsilent, -⟩ := faults_truncate hsilentRun
  obtain rfl : uses = greetingUses := by
    have hend := Option.some.inj hlisted
    exact (congrArg (fun listed => listed.2.2) hend).symm
  exact ⟨hloudRun, hlisted, houtput, hfits 5 (by decide), hcut 1 (by decide), hloud (by decide),
    hsilent rfl⟩

end ExprLang
