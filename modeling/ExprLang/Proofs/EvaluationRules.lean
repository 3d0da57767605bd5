import ExprLang.Proofs.Computations
import ExprLang.Proofs.PrintedLines

/-!
# Rules of evaluation

How an expression ends, told from how its parts end.  Budgets do not occur in the rules: each rule
finds one that is large enough for all parts.

* `Evaluates` — an expression has a value, which every run finds without using a stream.
* `Console.nextLine_of_line` — a request for a line, told from the lines that are left.

Principal results: `endsIn_ite`, `endsIn_call` — control passes to a branch or to a body;
`endsIn_print` — a line is written; `endsIn_input`, `endsIn_cast` — how an error comes about;
`endsIn_binop_of_error`, `endsIn_call_of_error` — how it passes through.
-/

set_option autoImplicit false

namespace ExprLang

/-! ## Requests for lines -/

namespace Line

theorem chomp_carriageReturn (s : String) : chomp (s ++ "\r\n") = s := by
  have hline : (s ++ "\r\n").toList = (s.toList ++ ['\r']) ++ ['\n'] := by simp
  rw [chomp, hline, chompChars, List.getLast?_concat, if_pos rfl, List.dropLast_concat]
  dsimp only
  rw [List.getLast?_concat, if_pos rfl, List.dropLast_concat, String.ofList_toList]

/-- The bytes of a line decide what it is answered with. -/
theorem Answers.eq_chomp {line : List UInt8} {answer : Except RunError String}
    (h : Answers (some line) answer) :
    answer = match Utf8.decode? line with
      | some text => .ok (chomp text)
      | none => .error (.channel .invalidText) := by
  cases h with
  | carriageReturn s =>
    rw [Utf8.decode?_encode]
    exact congrArg Except.ok (chomp_carriageReturn s).symm
  | newline s hs =>
    rw [Utf8.decode?_encode]
    exact congrArg Except.ok (readBack_eq_self_iff.mpr hs).symm
  | unterminated s hs =>
    have hself : chomp s = s := by rw [chomp, chompChars, if_neg hs, String.ofList_toList]
    rw [Utf8.decode?_encode]
    exact congrArg Except.ok hself.symm
  | invalid line hline =>
    have hnone : Utf8.decode? line = none :=
      Option.eq_none_iff_forall_ne_some.mpr fun s hs => hline s (Utf8.decode?_eq_some_iff.mp hs)
    rw [hnone]

end Line

/-- A request is answered from the first of the lines that are left, and then the others are left. -/
theorem Console.nextLine_of_line {unread line : List UInt8} {later : List (List UInt8)}
    {answer : Except RunError String} (hsplit : Line.split unread = line :: later)
    (h : Line.Answers (some line) answer) :
    nextLine unread = answer ∧ Line.split (Line.rest unread) = later := by
  have hnext := nextLine_answers unread
  rw [hsplit, List.getElem?_cons_zero] at hnext
  refine ⟨hnext.eq_chomp.trans h.eq_chomp.symm, ?_⟩
  rw [Line.split_rest, hsplit, List.drop_one, List.tail_cons]

/-! ## Values -/

/-- On some budget, and then on every larger one, an expression has a value that is found without using
a stream. -/
def Evaluates (table : FunctionTable) (env : Env Value) (e : Expr) (v : Value) : Prop :=
  ∃ n, (eval table n env e).Computes v

section Rules

variable {table : FunctionTable} {env : Env Value} {c : Console} {ending : Ending}

namespace Evaluates

theorem lit (v : Value) : Evaluates table env (.lit v) v := ⟨1, .pure v⟩

theorem var {x : Name} {v : Value} (h : env.find? x = some v) : Evaluates table env (.var x) v :=
  ⟨1, .ofOption h _⟩

/-- Finitely many expressions have their values on every budget that is large enough. -/
theorem eventually {es : List Expr} {vs : List Value}
    (h : List.Forall₂ (Evaluates table env) es vs) :
    ∃ n, ∀ m, n ≤ m → List.Forall₂ (fun e v => (eval table m env e).Computes v) es vs := by
  induction h with
  | nil => exact ⟨0, fun _ _ => .nil⟩
  | @cons e v _ _ hfirst _ ih =>
    obtain ⟨n, hn⟩ := hfirst
    obtain ⟨n', hn'⟩ := ih
    refine ⟨max n n', fun m hm => .cons ?_ (hn' m (by omega))⟩
    exact (eval_mono table (by omega) env e).computes hn

theorem binop {op : BinOp} {left right : Expr} {a b v : Value} (hleft : Evaluates table env left a)
    (hright : Evaluates table env right b) (h : op.apply a b = .ok v) :
    Evaluates table env (.binop op left right) v := by
  obtain ⟨n, hvalues⟩ := eventually (.cons hleft (.cons hright .nil))
  obtain ⟨hleft, hrest⟩ := List.forall₂_cons.mp (hvalues n (Nat.le_refl n))
  obtain ⟨hright, -⟩ := List.forall₂_cons.mp hrest
  refine ⟨n + 1, ?_⟩
  rw [eval]
  exact hleft.bind (hright.bind ((Run.Computes.record rfl).bind (.ofExcept h)))

theorem cast {target : Ty} {e : Expr} {v w : Value} (he : Evaluates table env e v)
    (h : ExprLang.cast v target = .ok w) : Evaluates table env (.cast target e) w := by
  obtain ⟨n, hn⟩ := he
  refine ⟨n + 1, ?_⟩
  rw [eval]
  exact hn.bind ((Run.Computes.record rfl).bind (.ofExcept h))

theorem ite {test yes no : Expr} {b : Bool} {v : Value} (htest : Evaluates table env test (.bool b))
    (h : Evaluates table env (if b then yes else no) v) :
    Evaluates table env (.ite test yes no) v := by
  obtain ⟨n, hvalues⟩ := eventually (.cons htest (.cons h .nil))
  obtain ⟨htest, hrest⟩ := List.forall₂_cons.mp (hvalues n (Nat.le_refl n))
  obtain ⟨hbranch, -⟩ := List.forall₂_cons.mp hrest
  refine ⟨n + 1, ?_⟩
  rw [eval]
  refine htest.bind (Run.Computes.bind (.ofExcept rfl) ?_)
  cases b with
  | true => exact hbranch
  | false => exact hbranch

theorem call {f : Name} {d : Definition} {args : List Expr} {values : List Value} {v : Value}
    (hd : table[f]? = some d) (hlen : d.params.length = args.length)
    (hargs : List.Forall₂ (Evaluates table env) args values)
    (h : Evaluates table (Env.empty.bindAll ((d.params.map Prod.fst).zip values)) d.body v) :
    Evaluates table env (.call f args) v := by
  obtain ⟨n, hvalues⟩ := eventually hargs
  obtain ⟨m, hm⟩ := h
  have hbody := (eval_mono table (Nat.le_max_right n m) _ d.body).computes hm
  refine ⟨max n m + 1, ?_⟩
  rw [eval, hd]
  simp only [Run.ofOption, Run.ensure, if_pos hlen, pure_bind]
  refine (Run.Computes.mapM (hvalues _ (Nat.le_max_left n m))).bind ?_
  exact (Run.Computes.record rfl).bind hbody

theorem concat {parts : List Expr} {texts : List String}
    (h : List.Forall₂ (fun e s => Evaluates table env e (.string s)) parts texts) :
    Evaluates table env (.concat parts) (.string (String.join texts)) := by
  obtain ⟨n, hvalues⟩ := eventually (List.forall₂_map_right_iff.mpr h)
  have hparts := List.forall₂_map_right_iff.mp (hvalues n (Nat.le_refl n))
  refine ⟨n + 1, ?_⟩
  rw [eval]
  refine (Run.Computes.mapM (hparts.imp fun e s he => ?_)).bind (.pure _)
  exact he.bind (.ofExcept rfl)

theorem endsIn {e : Expr} {v : Value} (h : Evaluates table env e v) (c : Console) :
    EndsIn table env e c ⟨.ok v, c.output, c.unread⟩ := by
  obtain ⟨n, hn⟩ := h
  obtain ⟨d, hd, hcd⟩ := hn c
  refine ⟨n, ?_⟩
  rw [Run.seen, hd, Option.map_some, hcd.output, hcd.unread]

end Evaluates

/-! ## Endings -/

/-- What comes first and what is done in the end have one budget that is large enough for both. -/
theorem EndsIn.with_values {env' : Env Value} {e : Expr} {es : List Expr} {vs : List Value}
    (h : EndsIn table env' e c ending) (hvalues : List.Forall₂ (Evaluates table env) es vs) :
    ∃ n, List.Forall₂ (fun e v => (eval table n env e).Computes v) es vs ∧
      (eval table n env' e).seen c = some ending := by
  obtain ⟨n, hn⟩ := Evaluates.eventually hvalues
  obtain ⟨m, hm⟩ := h
  exact ⟨max n m, hn _ (Nat.le_max_left n m),
    (eval_mono table (Nat.le_max_right n m) env' e).seen hm⟩

theorem endsIn_ite {test yes no : Expr} {b : Bool} (htest : Evaluates table env test (.bool b))
    (h : EndsIn table env (if b then yes else no) c ending) :
    EndsIn table env (.ite test yes no) c ending := by
  obtain ⟨n, hvalues, hbranch⟩ := h.with_values (.cons htest .nil)
  obtain ⟨htest, -⟩ := List.forall₂_cons.mp hvalues
  -- the value of the test and its kind are one computation, and the branch is what follows
  have hbool := htest.bind (k := fun v => Run.ofExcept v.expectBool) (.ofExcept rfl)
  refine ⟨n + 1, ?_⟩
  rw [eval, ← bind_assoc, hbool.seen_bind]
  · cases b with
    | true => exact hbranch
    | false => exact hbranch
  · cases b with
    | true => exact eval_composed _ _ _ _
    | false => exact eval_composed _ _ _ _

section Call

variable {f : Name} {d : Definition} {args : List Expr} {values : List Value}

theorem endsIn_call (hd : table[f]? = some d) (hlen : d.params.length = args.length)
    (hargs : List.Forall₂ (Evaluates table env) args values)
    (h : EndsIn table (Env.empty.bindAll ((d.params.map Prod.fst).zip values)) d.body c ending) :
    EndsIn table env (.call f args) c ending := by
  obtain ⟨n, hvalues, hbody⟩ := h.with_values hargs
  have hcomposed := eval_composed table n
    (Env.empty.bindAll ((d.params.map Prod.fst).zip values)) d.body
  refine ⟨n + 1, ?_⟩
  rw [eval, hd]
  simp only [Run.ofOption, Run.ensure, if_pos hlen, pure_bind]
  rw [(Run.Computes.mapM hvalues).seen_bind, hcomposed.seen_record rfl, hbody]
  exact (Run.Composed.step (.note rfl)).bind fun _ => hcomposed

theorem endsIn_call_of_error {arg : Expr} {err : RunError} {out unread : List UInt8}
    (hd : table[f]? = some d) (hlen : d.params.length = (arg :: args).length)
    (h : EndsIn table env arg c ⟨.error err, out, unread⟩) :
    EndsIn table env (.call f (arg :: args)) c ⟨.error err, out, unread⟩ := by
  obtain ⟨n, hn⟩ := h
  refine ⟨n + 1, ?_⟩
  rw [eval, hd]
  simp only [Run.ofOption, Run.ensure, if_pos hlen, pure_bind, List.mapM_cons, bind_assoc]
  exact Run.seen_bind_of_error hn

/-- Once the argument has its value, the call is noted and the body is evaluated. -/
theorem on_eval_call {budget : Nat} {arg : Expr} {v : Value} {c' : Console} (hd : table[f]? = some d)
    (hlen : d.params.length = 1) (harg : (eval table budget env arg).on c = some (.ok v, c')) :
    (eval table (budget + 1) env (.call f [arg])).on c =
      (eval table budget (Env.empty.bindAll ((d.params.map Prod.fst).zip [v])) d.body).on
        (c'.record (.calling f [v])) := by
  rw [eval, hd]
  simp only [Run.ofOption, Run.ensure, List.length_singleton, if_pos hlen, pure_bind,
    List.mapM_cons, List.mapM_nil, Run.run_bind, harg, Run.run_pure, Run.run_record]

end Call

theorem endsIn_binop_of_error {op : BinOp} {left right : Expr} {a : Value} {err : RunError}
    {out unread : List UInt8} (hleft : Evaluates table env left a)
    (h : EndsIn table env right c ⟨.error err, out, unread⟩) :
    EndsIn table env (.binop op left right) c ⟨.error err, out, unread⟩ := by
  obtain ⟨n, hvalues, hright⟩ := h.with_values (.cons hleft .nil)
  obtain ⟨hleft, -⟩ := List.forall₂_cons.mp hvalues
  refine ⟨n + 1, ?_⟩
  rw [eval, hleft.seen_bind]
  · exact Run.seen_bind_of_error hright
  · refine (eval_composed _ _ _ _).bind fun b => ?_
    exact (Run.Composed.step (.note rfl)).bind fun _ => .ofExcept (op.apply_computed a b)

/-- Whether there is a line or not. -/
theorem endsIn_input (table : FunctionTable) (env : Env Value) (c : Console) :
    EndsIn table env .input c
      ⟨(Console.nextLine c.unread).map Value.string, c.output, Line.rest c.unread⟩ := by
  refine ⟨1, ?_⟩
  rw [Run.seen, on_eval_input, Option.map_some, Console.output_readLine]
  rfl

/-- Whether the cast succeeds or not. -/
theorem endsIn_cast (target : Ty) {e : Expr} {v : Value} (he : Evaluates table env e v)
    (c : Console) :
    EndsIn table env (.cast target e) c ⟨cast v target, c.output, c.unread⟩ := by
  obtain ⟨n, hn⟩ := he
  refine ⟨n + 1, ?_⟩
  have hresult : (Run.ofExcept (cast v target)).Composed := .ofExcept (cast_computed v target)
  rw [eval, hn.seen_bind, hresult.seen_record rfl]
  · rfl
  · exact (Run.Composed.step (.note rfl)).bind fun _ => hresult

/-- Whether the output takes the line or not. -/
theorem endsIn_print {e : Expr} {s : String} (he : Evaluates table env e (.string s)) (c : Console) :
    EndsIn table env (.print e) c
      ⟨(c.writeLine s).1.map fun _ => .unit, (c.writeLine s).2.output, c.unread⟩ := by
  obtain ⟨n, hn⟩ := he
  have htext := hn.bind (k := fun v => Run.ofExcept v.expectString) (.ofExcept rfl)
  refine ⟨n + 1, ?_⟩
  rw [eval, ← bind_assoc, htext.seen_bind]
  · have hunread : c.unread = (c.writeLine s).2.unread := rfl
    rw [Run.seen, Run.run_bind, Run.run_writeLine, hunread]
    obtain ⟨verdict, d⟩ := c.writeLine s
    cases verdict with
    | ok _ => rfl
    | error _ => rfl
  · exact (Run.Composed.step (.writeLine s)).bind fun _ => .pure _

end Rules

end ExprLang
