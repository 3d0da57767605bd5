import ExprLang.Proofs.Composed

/-!
# Uses of the streams

Two kinds of node use the streams: a request for input reads a line, and a print writes one.  A
listed evaluation keeps a list of these uses beside its console.  It adds to the list where such a
node is executed and nowhere else, so what has happened on a console can be told from the nodes that
were executed.

* `Console.answers`, `Console.writings` — what requests were answered, and what each write put out.
* `Use` — a request executed, with its answer, or a print executed, with its string.
* `Listed` — runs that keep a list of uses; `evalListed` — the evaluation as such a run.
* `Console.Accounts` — a list of uses accounts for how a console has changed.
* `Listed.Lists` — a listed run does what a plain one does, and its list accounts for that.

Principal result: `evalListed_lists` — the listed evaluation lists the evaluation.
-/

set_option autoImplicit false

namespace ExprLang

/-! ## Views of the history -/

def Line.ofText (s : String) : List UInt8 := Utf8.encode s ++ [newline]

namespace Event

def answer? : Event → Option (Except RunError String)
  | .reading answer => some answer
  | _ => none

def line? : Event → Option (List UInt8)
  | .writing bytes => some bytes
  | _ => none

end Event

namespace Console

/-- What the requests for lines were answered, in order. -/
def answers (c : Console) : List (Except RunError String) :=
  c.events.reverse.filterMap Event.answer?

/-- In order, each with its newline if it was taken whole. -/
def writings (c : Console) : List (List UInt8) := c.events.reverse.filterMap Event.line?

theorem answers_record {c : Console} {e : Event} (he : e.isTransfer = false) :
    (c.record e).answers = c.answers := by
  have hnone : e.answer? = none := by
    cases e with
    | reading answer => cases he
    | _ => rfl
  simp [answers, record, hnone]

theorem answers_readLine (c : Console) :
    c.readLine.2.answers = c.answers ++ [nextLine c.unread] := by
  simp [answers, readLine, record, Event.answer?]

theorem answers_writeLine (c : Console) (s : String) : (c.writeLine s).2.answers = c.answers := by
  simp [answers, writeLine, record, Event.answer?]

theorem writings_record {c : Console} {e : Event} (he : e.isTransfer = false) :
    (c.record e).writings = c.writings := by
  have hnone : e.line? = none := by
    cases e with
    | writing bytes => cases he
    | _ => rfl
  simp [writings, record, hnone]

theorem writings_readLine (c : Console) : c.readLine.2.writings = c.writings := by
  simp [writings, readLine, record, Event.line?]

theorem writings_writeLine (c : Console) (s : String) :
    (c.writeLine s).2.writings = c.writings ++ [accepted c.room (Line.ofText s)] := by
  simp [writings, writeLine, record, Event.line?, Line.ofText]

theorem output_eq_flatten (c : Console) : c.output = c.writings.flatten := by
  unfold output writings
  induction c.events.reverse with
  | nil => rfl
  | cons e es ih => cases e <;> simp [Event.line?, Event.written, List.filterMap_cons, ih]

end Console

/-! ## Uses -/

inductive Use where
  /-- The input was asked for a line and gave this answer. -/
  | read (answer : Except RunError String)
  /-- The string was to be written, whatever the output took of it. -/
  | print (s : String)

namespace Use

def answer? : Use → Option (Except RunError String)
  | .read answer => some answer
  | .print _ => none

def text? : Use → Option String
  | .read _ => none
  | .print s => some s

/-- What the requests executed were answered, in order. -/
def answers (uses : List Use) : List (Except RunError String) := uses.filterMap answer?

/-- The strings of the prints executed, in order. -/
def texts (uses : List Use) : List String := uses.filterMap text?

theorem answers_append (uses more : List Use) :
    answers (uses ++ more) = answers uses ++ answers more :=
  List.filterMap_append

theorem texts_append (uses more : List Use) : texts (uses ++ more) = texts uses ++ texts more :=
  List.filterMap_append

end Use

/-! ## Listed runs -/

variable {α β : Type}

/-- A run on a console and the uses listed so far. -/
abbrev Listed := ExceptT RunError (StateT (Console × List Use) Option)

namespace Listed

abbrev on (t : Listed α) (c : Console) (before : List Use) :
    Option (Except RunError α × Console × List Use) := t.run.run (c, before)

/-- Does what `m` does, and lists the uses `f` of its result. -/
def listing (f : Except RunError α → List Use) (m : Run α) : Listed α :=
  ExceptT.mk fun (c, before) => (m.on c).map fun (r, d) => (r, d, before ++ f r)

/-- Does what `m` does, and lists nothing. -/
def unlisted (m : Run α) : Listed α := listing (fun _ => []) m

def readLine : Listed String := listing (fun answer => [.read answer]) Run.readLine

def writeLine (s : String) : Listed Unit := listing (fun _ => [.print s]) (Run.writeLine s)

theorem run_bind (t : Listed α) (k : α → Listed β) (c : Console) (before : List Use) :
    (t >>= k).on c before =
      match t.on c before with
      | none => none
      | some (.error e, d, uses) => some (.error e, d, uses)
      | some (.ok a, d, uses) => (k a).on d uses := by
  simp only [on, ExceptT.run_bind, StateT.run_bind]
  cases h : t.run.run (c, before) with
  | none => rfl
  | some ending =>
    obtain ⟨r, d, uses⟩ := ending
    cases r <;> rfl

end Listed

/-- The evaluation, with a list of the requests and the prints that are executed.  No other node adds
to it. -/
def evalListed (table : FunctionTable) : Nat → Env Value → Expr → Listed Value
  | 0, _, _ => .unlisted Run.unfinished
  | _ + 1, _, .lit v => pure v
  | _ + 1, env, .var x => .unlisted (Run.ofOption (env.find? x) (.unboundName x))
  | budget + 1, env, .binop op left right => do
    let a ← evalListed table budget env left
    let b ← evalListed table budget env right
    Listed.unlisted (Run.record (.applying op a b))
    Listed.unlisted (Run.ofExcept (op.apply a b))
  | budget + 1, env, .not e => do
    let b ← Listed.unlisted (Run.ofExcept (← evalListed table budget env e).expectBool)
    return .bool !b
  | budget + 1, env, .letIn x bound body => do
    evalListed table budget (env.bind x (← evalListed table budget env bound)) body
  | budget + 1, env, .ite test yes no => do
    if ← Listed.unlisted (Run.ofExcept (← evalListed table budget env test).expectBool) then
      evalListed table budget env yes
    else
      evalListed table budget env no
  | budget + 1, env, .call f args => do
    let d ← Listed.unlisted (Run.ofOption table[f]? (.undefinedFunction f))
    Listed.unlisted (Run.ensure (d.params.length = args.length)
      (.arityMismatch f d.params.length args.length))
    let values ← args.mapM (evalListed table budget env)
    Listed.unlisted (Run.record (.calling f values))
    evalListed table budget (Env.empty.bindAll ((d.params.map Prod.fst).zip values)) d.body
  | budget + 1, env, .concat parts => do
    let texts ← parts.mapM fun e => do
      Listed.unlisted (Run.ofExcept (← evalListed table budget env e).expectString)
    return .string (String.join texts)
  | budget + 1, env, .print e => do
    let s ← Listed.unlisted (Run.ofExcept (← evalListed table budget env e).expectString)
    Listed.writeLine s
    return .unit
  | _ + 1, _, .input => do
    return .string (← Listed.readLine)
  | budget + 1, env, .cast target e => do
    let v ← evalListed table budget env e
    Listed.unlisted (Run.record (.casting v target))
    Listed.unlisted (Run.ofExcept (cast v target))

/-! ## Accounts -/

/-- From `c` to `d` the input was asked once for each request, and the output, if it has no limit,
took a line for each print. -/
structure Console.Accounts (c d : Console) (uses : List Use) : Prop where
  answers : d.answers = c.answers ++ Use.answers uses
  room : c.room = none → d.room = none
  writings : c.room = none → d.writings = c.writings ++ (Use.texts uses).map Line.ofText

namespace Console

theorem Accounts.refl (c : Console) : c.Accounts c [] where
  answers := (List.append_nil _).symm
  room h := h
  writings _ := (List.append_nil _).symm

theorem Accounts.append {c d e : Console} {uses more : List Use} (hcd : c.Accounts d uses)
    (hde : d.Accounts e more) : c.Accounts e (uses ++ more) where
  answers := by rw [hde.answers, hcd.answers, Use.answers_append, List.append_assoc]
  room h := hde.room (hcd.room h)
  writings h := by
    rw [hde.writings (hcd.room h), hcd.writings h, Use.texts_append, List.map_append,
      List.append_assoc]

theorem accounts_record {e : Event} (he : e.isTransfer = false) (c : Console) :
    c.Accounts (c.record e) [] where
  answers := by rw [answers_record he, Use.answers, List.filterMap_nil, List.append_nil]
  room h := h
  writings _ := by
    rw [writings_record he, Use.texts, List.filterMap_nil, List.map_nil, List.append_nil]

theorem accounts_readLine (c : Console) : c.Accounts c.readLine.2 [.read c.readLine.1] where
  answers := c.answers_readLine
  room h := h
  writings _ := by
    rw [writings_readLine]
    exact (List.append_nil _).symm

theorem accounts_writeLine (c : Console) (s : String) :
    c.Accounts (c.writeLine s).2 [.print s] where
  answers := by
    rw [answers_writeLine]
    exact (List.append_nil _).symm
  room h := by simp [writeLine, record, h]
  writings h := by
    rw [writings_writeLine, h]
    rfl

/-- The streams are left alone. -/
def quietConduct : Conduct where
  step c d := c.Accounts d []
  fault _ := True
  refl := Accounts.refl
  trans := Accounts.append

end Console

/-! ## Rules -/

namespace Listed

/-- On every console `t` does what `m` does, and what it adds to its list accounts for that. -/
def Lists (t : Listed α) (m : Run α) : Prop :=
  ∀ c : Console, ∃ uses : List Use,
    (∀ before, t.on c before = (m.on c).map fun (r, d) => (r, d, before ++ uses)) ∧
    ∀ (r : Except RunError α) (d : Console), m.on c = some (r, d) → c.Accounts d uses

theorem Lists.on_eq_some {t : Listed α} {m : Run α} (h : t.Lists m) {c d : Console}
    {r : Except RunError α} (hm : m.on c = some (r, d)) (before : List Use) :
    ∃ uses, t.on c before = some (r, d, before ++ uses) ∧ c.Accounts d uses := by
  obtain ⟨uses, hlisted, haccounts⟩ := h c
  refine ⟨uses, ?_, haccounts r d hm⟩
  rw [hlisted, hm]
  rfl

theorem Lists.pure (a : α) : (pure a : Listed α).Lists (pure a) := by
  intro c
  refine ⟨[], fun before => ?_, fun r d h => ?_⟩
  · show some (Except.ok a, c, before) = some (.ok a, c, before ++ [])
    rw [List.append_nil]
  · cases h
    exact .refl c

theorem Lists.listing {f : Except RunError α → List Use} {m : Run α}
    (h : ∀ c r d, m.on c = some (r, d) → c.Accounts d (f r)) : (listing f m).Lists m := by
  intro c
  have hon : ∀ before, (Listed.listing f m).on c before =
      (m.on c).map fun (r, d) => (r, d, before ++ f r) := fun before => rfl
  cases hm : m.on c with
  | none =>
    rw [hm] at hon
    exact ⟨[], hon, fun r d h => by cases h⟩
  | some ending =>
    obtain ⟨r, d⟩ := ending
    rw [hm] at hon
    refine ⟨f r, hon, fun r' d' hend => ?_⟩
    cases hend
    exact h c r d hm

theorem Lists.unlisted {m : Run α} {post : α → Prop} (h : m.Obeys Console.quietConduct post) :
    (unlisted m).Lists m :=
  .listing fun c r d hm => (h c r d hm).1

theorem Lists.unfinished : (Listed.unlisted Run.unfinished : Listed α).Lists Run.unfinished :=
  .listing fun c r d h => by cases h

theorem Lists.ofExcept (r : Except RunError α) :
    (Listed.unlisted (Run.ofExcept r)).Lists (Run.ofExcept r) := by
  have hquiet : (Run.ofExcept r).Obeys Console.quietConduct fun _ => True :=
    .ofExcept (by cases r <;> trivial)
  exact .unlisted hquiet

theorem Lists.record {e : Event} (he : e.isTransfer = false) :
    (Listed.unlisted (Run.record e)).Lists (Run.record e) :=
  .unlisted (.record (Console.accounts_record he))

theorem Lists.readLine : readLine.Lists Run.readLine := by
  refine .listing fun c r d hm => ?_
  cases hm
  exact c.accounts_readLine

theorem Lists.writeLine (s : String) : (writeLine s).Lists (Run.writeLine s) := by
  refine .listing fun c r d hm => ?_
  cases hm
  exact c.accounts_writeLine s

theorem Lists.bind {t : Listed α} {k : α → Listed β} {m : Run α} {l : α → Run β} (ht : t.Lists m)
    (hk : ∀ a, (k a).Lists (l a)) : (t >>= k).Lists (m >>= l) := by
  intro c
  obtain ⟨first, hfirst, haccounts⟩ := ht c
  simp only [run_bind, Run.run_bind, hfirst]
  cases hm : m.on c with
  | none => exact ⟨[], fun before => rfl, fun r d h => by cases h⟩
  | some ending =>
    obtain ⟨r, d⟩ := ending
    have hd : c.Accounts d first := haccounts r d hm
    -- an error ends the sequence, and with it the list
    cases r with
    | error e =>
      refine ⟨first, fun before => rfl, fun r' d' h => ?_⟩
      cases h
      exact hd
    | ok a =>
      obtain ⟨second, hsecond, haccounts'⟩ := hk a d
      refine ⟨first ++ second, fun before => ?_, fun r' d' h => hd.append (haccounts' r' d' h)⟩
      show (k a).on d (before ++ first) = _
      rw [hsecond, List.append_assoc]

theorem Lists.mapM {f : α → Listed β} {g : α → Run β} (h : ∀ a, (f a).Lists (g a)) (as : List α) :
    (as.mapM f).Lists (as.mapM g) := by
  induction as with
  | nil => exact .pure []
  | cons a as ih =>
    rw [List.mapM_cons, List.mapM_cons]
    exact (h a).bind fun b => ih.bind fun bs => .pure (b :: bs)

end Listed

/-- **The listed evaluation lists the evaluation.**  It does what the evaluation does, whether or not
that finishes, and the requests and prints on its list are all that happened to the streams. -/
theorem evalListed_lists (table : FunctionTable) (n : Nat) (env : Env Value) (e : Expr) :
    (evalListed table n env e).Lists (eval table n env e) := by
  induction n generalizing env e with
  | zero => exact .unfinished
  | succ n ih =>
    cases e with
    | lit v => exact .pure v
    | var x => exact .unlisted (.ofOption fun _ => trivial)
    | binop op left right =>
      rw [eval, evalListed]
      refine (ih env left).bind fun a => (ih env right).bind fun b => ?_
      exact (Listed.Lists.record rfl).bind fun _ => .ofExcept _
    | not e =>
      rw [eval, evalListed]
      refine (ih env e).bind fun v => ?_
      exact (Listed.Lists.ofExcept _).bind fun b => .pure _
    | letIn x bound body =>
      rw [eval, evalListed]
      exact (ih env bound).bind fun v => ih _ body
    | ite test yes no =>
      rw [eval, evalListed]
      refine (ih env test).bind fun v => (Listed.Lists.ofExcept _).bind fun b => ?_
      cases b with
      | true => exact ih env yes
      | false => exact ih env no
    | call f args =>
      rw [eval, evalListed]
      refine Listed.Lists.bind (.unlisted (.ofOption fun _ => trivial)) fun d => ?_
      refine Listed.Lists.bind (.unlisted (.ensure fun _ => trivial)) fun _ => ?_
      refine (Listed.Lists.mapM (ih env) args).bind fun vs => ?_
      exact (Listed.Lists.record rfl).bind fun _ => ih _ d.body
    | concat parts =>
      rw [eval, evalListed]
      refine Listed.Lists.bind (.mapM (fun e => ?_) parts) fun texts => .pure _
      exact (ih env e).bind fun v => .ofExcept _
    | print e =>
      rw [eval, evalListed]
      refine (ih env e).bind fun v => (Listed.Lists.ofExcept _).bind fun s => ?_
      exact (Listed.Lists.writeLine s).bind fun _ => .pure _
    | input =>
      rw [eval, evalListed]
      exact Listed.Lists.readLine.bind fun s => .pure _
    | cast target e =>
      rw [eval, evalListed]
      refine (ih env e).bind fun v => ?_
      exact (Listed.Lists.record rfl).bind fun _ => .ofExcept _

end ExprLang
