import ExprLang.Eval.Budget
import ExprLang.Proofs.Coupling

/-!
# What is seen of a run

From outside, a run shows its result, what it wrote and what it left of the input.  The history that
the console keeps besides is not seen, and no run depends on it.

* `Ending` — what is seen of a run that finished; `Run.seen` — the same on a given console.
* `EndsIn` — evaluation finishes, and this is what is seen of it.
* `Console.Alike` — consoles of the same streams and the same output, whatever led there.
* `Console.withPast` — the same console with a longer history; `Ending.after` — an ending with more
  output before it.

Principal results: `Composed.seen_congr` — on consoles that are alike the same is seen of a run;
`Composed.seen_eq_after` — a run adds to the output so far what it writes on a console without
history.
-/

set_option autoImplicit false

namespace ExprLang

variable {α : Type}

/-! ## Output -/

namespace Console

/-- A history from before. -/
def withPast (past : List Event) (c : Console) : Console := { c with events := c.events ++ past }

theorem withPast_forget (c : Console) : c.forget.withPast c.events = c := rfl

theorem output_withPast (past : List Event) (c : Console) :
    (c.withPast past).output = past.reverse.flatMap Event.written ++ c.output := by
  simp [output, withPast]

@[simp]
theorem output_record (c : Console) (e : Event) : (c.record e).output = c.output ++ e.written := by
  simp [output, record]

@[simp]
theorem output_readLine (c : Console) : c.readLine.2.output = c.output := by
  simp [readLine, output, record, Event.written]

@[simp]
theorem output_writeLine (c : Console) (s : String) :
    (c.writeLine s).2.output = c.output ++ accepted c.room (Utf8.encode s ++ [Line.newline]) := by
  simp [writeLine, output, record, Event.written]

theorem written_of_not_isTransfer {e : Event} (he : e.isTransfer = false) : e.written = [] := by
  cases e with
  | writing bytes => cases he
  | _ => rfl

end Console

/-! ## Consoles that are alike -/

/-- The streams are the same, and the same was written so far. -/
structure Console.Alike (c c' : Console) : Prop where
  unread : c'.unread = c.unread
  room : c'.room = c.room
  flushFails : c'.flushFails = c.flushFails
  output : c'.output = c.output

theorem Console.Alike.symm {c c' : Console} (h : c.Alike c') : c'.Alike c :=
  ⟨h.unread.symm, h.room.symm, h.flushFails.symm, h.output.symm⟩

theorem Console.alike_record (c : Console) {e : Event} (he : e.isTransfer = false) :
    c.Alike (c.record e) :=
  ⟨rfl, rfl, rfl, by rw [output_record, written_of_not_isTransfer he, List.append_nil]⟩

theorem Console.Step.alike {s : Console → Except RunError α × Console} (hs : Step s)
    {c c' : Console} (h : c.Alike c') : (s c').1 = (s c).1 ∧ (s c).2.Alike (s c').2 := by
  obtain ⟨hu, hroom, hflush, hout⟩ := h
  cases hs with
  | note he => exact ⟨rfl, hu, hroom, hflush, by simp [hout]⟩
  | readLine =>
    refine ⟨congrArg nextLine hu, congrArg Line.rest hu, hroom, hflush, ?_⟩
    rw [output_readLine, output_readLine, hout]
  | writeLine s =>
    have hverdict : (c'.writeLine s).1 = (c.writeLine s).1 := by
      simp [Console.writeLine, hroom, hflush]
    have hleft : (c'.writeLine s).2.room = (c.writeLine s).2.room := by
      simp [Console.writeLine, record, hroom]
    refine ⟨hverdict, hu, hleft, hflush, ?_⟩
    rw [output_writeLine, output_writeLine, hout, hroom]

/-- Runs on consoles that are alike never part. -/
def alikeCoupling : Coupling where
  inStep := Console.Alike
  parted _ _ _ := False
  keeps hs h := .inl (hs.alike h)
  lasts _ h := h

/-! ## Endings -/

structure Ending where
  result : Except RunError Value
  output : List UInt8
  unread : List UInt8

namespace Run

/-- What is seen of a run, if it finishes. -/
def seen (m : Run Value) (c : Console) : Option Ending :=
  (m.on c).map fun x => ⟨x.1, x.2.output, x.2.unread⟩

theorem seen_bind_of_value {m : Run α} {k : α → Run Value} {c d : Console} {a : α}
    (h : m.on c = some (.ok a, d)) : (m >>= k).seen c = (k a).seen d := by
  rw [seen, seen, run_bind, h]

theorem seen_bind_of_error {m : Run Value} {k : Value → Run Value} {c : Console} {err : RunError}
    {out unread : List UInt8} (h : m.seen c = some ⟨.error err, out, unread⟩) :
    (m >>= k).seen c = some ⟨.error err, out, unread⟩ := by
  obtain ⟨⟨r, d⟩, hrun, hending⟩ := Option.map_eq_some_iff.mp h
  obtain ⟨rfl, rfl, rfl⟩ := Ending.mk.inj hending
  rw [seen, run_bind, hrun]
  rfl

theorem seen_bind_congr {m : Run α} {k k' : α → Run Value} {c : Console}
    (h : ∀ a d, m.on c = some (.ok a, d) → (k a).seen d = (k' a).seen d) :
    (m >>= k).seen c = (m >>= k').seen c := by
  unfold seen
  rw [run_bind, run_bind]
  cases hm : m.on c with
  | none => rfl
  | some x =>
    obtain ⟨r, d⟩ := x
    cases r with
    | ok a => exact h a d hm
    | error e => rfl

theorem Composed.seen_of_alike {m : Run Value} (hm : m.Composed) {c c' : Console}
    (h : c.Alike c') {ending : Ending} (hc : m.seen c = some ending) : m.seen c' = some ending := by
  obtain ⟨⟨r, d⟩, hrun, rfl⟩ := Option.map_eq_some_iff.mp hc
  obtain ⟨r', d', hrun', hends⟩ := hm.coupled alikeCoupling c c' h r d hrun
  rw [seen, hrun']
  rcases hends with ⟨rfl, halike⟩ | ⟨_, _, hfalse⟩
  · rw [Option.map_some, halike.output, halike.unread]
  · exact hfalse.elim

/-- **The history of a console does not show.** -/
theorem Composed.seen_congr {m : Run Value} (hm : m.Composed) {c c' : Console} (h : c.Alike c') :
    m.seen c = m.seen c' := by
  apply Option.ext
  intro ending
  exact ⟨hm.seen_of_alike h, hm.seen_of_alike h.symm⟩

/-- Nor does an event that uses no stream. -/
theorem Composed.seen_record {m : Run Value} (hm : m.Composed) {e : Event}
    (he : e.isTransfer = false) (c : Console) : (do record e; m).seen c = m.seen c :=
  (hm.seen_congr (c.alike_record he)).symm

theorem Le.seen {m m' : Run Value} (hle : m.Le m') {c : Console} {ending : Ending}
    (h : m.seen c = some ending) : m'.seen c = some ending := by
  obtain ⟨x, hx, rfl⟩ := Option.map_eq_some_iff.mp h
  rw [Run.seen, hle c x hx, Option.map_some]

end Run

/-! ## History -/

/-- The ending of a run that started with this output already there. -/
def Ending.after (output : List UInt8) (ending : Ending) : Ending :=
  { ending with output := output ++ ending.output }

theorem Ending.after_injective (output : List UInt8) : (Ending.after output).Injective := by
  rintro ⟨r, out, unread⟩ ⟨r', out', unread'⟩ h
  obtain ⟨rfl, hout, rfl⟩ := Ending.mk.inj h
  exact congrArg (Ending.mk r · unread) (List.append_cancel_left hout)

theorem Ending.after_append (first second : List UInt8) (ending : Ending) :
    ending.after (first ++ second) = (ending.after second).after first := by
  simp [after]

theorem Console.Step.withPast {s : Console → Except RunError α × Console} (hs : Step s)
    (past : List Event) (c : Console) :
    s (c.withPast past) = ((s c).1, (s c).2.withPast past) := by
  cases hs <;> rfl

namespace Run

theorem Composed.on_withPast {m : Run α} (hm : m.Composed) (past : List Event) (c : Console) :
    m.on (c.withPast past) = (m.on c).map fun x => (x.1, x.2.withPast past) := by
  induction hm generalizing c with
  | unfinished => rfl
  | ofExcept _ => rfl
  | step hs => exact congrArg some (hs.withPast past c)
  | bind _ _ ihm ihk =>
    rw [run_bind, run_bind, ihm]
    rename_i m k _ _
    cases hfirst : m.on c with
    | none => rfl
    | some x =>
      obtain ⟨r, d⟩ := x
      cases r with
      | ok a => exact ihk a d
      | error e => rfl

/-- **A run adds to the output so far** what it writes on a console without history. -/
theorem Composed.seen_eq_after {m : Run Value} (hm : m.Composed) (c : Console) :
    m.seen c = (m.seen c.forget).map (Ending.after c.output) := by
  have hrun : m.on c = (m.on c.forget).map fun x => (x.1, x.2.withPast c.events) := by
    rw [← hm.on_withPast, Console.withPast_forget]
  rw [seen, seen, hrun, Option.map_map, Option.map_map]
  refine congrArg (fun f => (m.on c.forget).map f) (funext fun x => ?_)
  exact congrArg (Ending.mk x.1 · x.2.unread) (x.2.output_withPast c.events)

end Run

/-- On some budget, and then on every larger one, evaluation finishes, and this is seen of it. -/
def EndsIn (table : FunctionTable) (env : Env Value) (e : Expr) (c : Console) (ending : Ending) :
    Prop :=
  ∃ n, (eval table n env e).seen c = some ending

theorem EndsIn.eventually {table : FunctionTable} {env : Env Value} {e : Expr} {c : Console}
    {ending : Ending} (h : EndsIn table env e c ending) :
    ∃ budget, ∀ n, budget ≤ n → (eval table n env e).seen c = some ending := by
  obtain ⟨budget, hbudget⟩ := h
  exact ⟨budget, fun n hn => (eval_mono table hn env e).seen hbudget⟩

theorem endsIn_forget {table : FunctionTable} {env : Env Value} {e : Expr} {c : Console}
    {ending : Ending} :
    EndsIn table env e c.forget ending ↔ EndsIn table env e c (ending.after c.output) := by
  refine exists_congr fun n => ?_
  rw [(eval_composed table n env e).seen_eq_after c, ← Option.map_some,
    (Option.map_injective (Ending.after_injective c.output)).eq_iff]

end ExprLang
