import ExprLang.Eval.Budget
import ExprLang.Typing.Infer

/-!
# Concatenations within concatenations

Each part of a concatenation is evaluated, looked at and appended before the next one.  So a
concatenation among the parts may as well be replaced by its own parts: the same is checked and done
in the same order, up to and with the first error.

* `evalText`, `evalTexts` — the text of one part, and the texts of a list of parts.
* `evalAround` — the parts in the middle may have a budget of their own.

Principal results: `inferArgs_texts_append` — a list of parts is checked piece by piece;
`eval_concat_nested`, `eval_concat_flat` — both concatenations are the same three pieces;
`concat_flattens`.
-/

set_option autoImplicit false

namespace ExprLang

variable {table : FunctionTable}

/-! ## Inference -/

/-- Every one of the parts must be a string. -/
theorem inferArgs_texts_append (env : Env Ty) (es more : List Expr) :
    inferArgs table env ((es ++ more).map fun _ => .string) (es ++ more) = (do
      inferArgs table env (es.map fun _ => .string) es
      inferArgs table env (more.map fun _ => .string) more) := by
  induction es with
  | nil => rfl
  | cons e es ih =>
    simp only [List.cons_append, List.map_cons, inferArgs, ih, bind_assoc]

/-- A concatenation is a string as soon as its parts are. -/
theorem inferArgs_texts_concat (env : Env Ty) (parts : List Expr) :
    inferArgs table env [.string] [.concat parts] =
      inferArgs table env (parts.map fun _ => .string) parts := by
  have hstring : Check.matchType .string .string = pure () := rfl
  simp only [inferArgs, infer, bind_assoc, pure_bind, hstring, bind_pure_unit]

theorem infer_concat_nested (env : Env Ty) (as bs cs : List Expr) :
    infer table env (.concat (as ++ [.concat bs] ++ cs)) =
      infer table env (.concat (as ++ bs ++ cs)) := by
  have hparts : inferArgs table env ((as ++ [Expr.concat bs] ++ cs).map fun _ => .string)
        (as ++ [.concat bs] ++ cs) =
      inferArgs table env ((as ++ bs ++ cs).map fun _ => .string) (as ++ bs ++ cs) := by
    rw [inferArgs_texts_append, inferArgs_texts_append, inferArgs_texts_append,
      inferArgs_texts_append, List.map_singleton, inferArgs_texts_concat]
  rw [infer, infer, hparts]

/-! ## Evaluation -/

/-- A part has a text, or it is refused. -/
def evalText (table : FunctionTable) (budget : Nat) (env : Env Value) (e : Expr) : Run String := do
  Run.ofExcept (← eval table budget env e).expectString

def evalTexts (table : FunctionTable) (budget : Nat) (env : Env Value) (es : List Expr) :
    Run (List String) :=
  es.mapM (evalText table budget env)

theorem eval_concat (n : Nat) (env : Env Value) (parts : List Expr) :
    eval table (n + 1) env (.concat parts) = (do
      return .string (String.join (← evalTexts table n env parts))) := rfl

/-- The text of a concatenation is never refused. -/
theorem evalText_concat (n : Nat) (env : Env Value) (parts : List Expr) :
    evalText table (n + 1) env (.concat parts) = (do
      return String.join (← evalTexts table n env parts)) := by
  rw [evalText, eval_concat, bind_assoc]
  rfl

theorem evalTexts_append (n : Nat) (env : Env Value) (es more : List Expr) :
    evalTexts table n env (es ++ more) = (do
      let texts ← evalTexts table n env es
      let others ← evalTexts table n env more
      return texts ++ others) :=
  List.mapM_append

/-- The texts of three lists of parts, joined. -/
def evalAround (table : FunctionTable) (outer inner : Nat) (env : Env Value) (as bs cs : List Expr) :
    Run Value := do
  let before ← evalTexts table outer env as
  let between ← evalTexts table inner env bs
  let behind ← evalTexts table outer env cs
  return .string (String.join (before ++ between ++ behind))

theorem eval_concat_flat (n : Nat) (env : Env Value) (as bs cs : List Expr) :
    eval table (n + 1) env (.concat (as ++ bs ++ cs)) = evalAround table n n env as bs cs := by
  simp only [eval_concat, evalTexts_append, evalAround, bind_assoc, pure_bind]

/-- The parts in the middle lie one level deeper. -/
theorem eval_concat_nested (n : Nat) (env : Env Value) (as bs cs : List Expr) :
    eval table (n + 2) env (.concat (as ++ [.concat bs] ++ cs)) =
      evalAround table (n + 1) n env as bs cs := by
  have hone : evalTexts table (n + 1) env [.concat bs] = (do
      return [String.join (← evalTexts table n env bs)]) := by
    simp only [evalTexts, List.mapM_cons, List.mapM_nil, evalText_concat, bind_assoc, pure_bind]
  have hjoin : ∀ before between behind : List String,
      String.join (before ++ [String.join between] ++ behind) =
        String.join (before ++ between ++ behind) := by
    intro before between behind
    simp
  simp only [eval_concat, evalTexts_append, hone, hjoin, evalAround, bind_assoc, pure_bind]

theorem evalTexts_mono {n m : Nat} (h : n ≤ m) (env : Env Value) (es : List Expr) :
    (evalTexts table n env es).Le (evalTexts table m env es) :=
  Run.Le.mapM (fun e => (eval_mono table h env e).bind fun _ => .refl _) es

theorem evalAround_mono {outer inner outer' inner' : Nat} (houter : outer ≤ outer')
    (hinner : inner ≤ inner') (env : Env Value) (as bs cs : List Expr) :
    (evalAround table outer inner env as bs cs).Le (evalAround table outer' inner' env as bs cs) :=
  (evalTexts_mono houter env as).bind fun _ => (evalTexts_mono hinner env bs).bind fun _ =>
    (evalTexts_mono houter env cs).bind fun _ => .refl _

/-! ## Main theorem -/

/-- **Concatenations flatten.**  A concatenation among the parts of another one and its parts in its
place have the same check, errors included, and the same run: on every console both finish or neither
does, with the same value or error, and they leave the same console. -/
theorem concat_flattens (table : FunctionTable) (as bs cs : List Expr) :
    (∀ types : Env Ty, infer table types (.concat (as ++ [.concat bs] ++ cs)) =
      infer table types (.concat (as ++ bs ++ cs))) ∧
    ∀ (env : Env Value) (c d : Console) (r : Except RunError Value),
      (∃ n, (eval table n env (.concat (as ++ [.concat bs] ++ cs))).on c = some (r, d)) ↔
        ∃ n, (eval table n env (.concat (as ++ bs ++ cs))).on c = some (r, d) := by
  refine ⟨fun types => infer_concat_nested types as bs cs, fun env c d r => ⟨?_, ?_⟩⟩
  · rintro ⟨n, hn⟩
    refine ⟨n + 2, ?_⟩
    have hnested := eval_mono table (Nat.le_add_right n 2) env _ c _ hn
    rw [eval_concat_nested] at hnested
    rw [eval_concat_flat]
    exact evalAround_mono (Nat.le_refl _) (Nat.le_succ n) env as bs cs c _ hnested
  · rintro ⟨n, hn⟩
    refine ⟨n + 2, ?_⟩
    have hflat := eval_mono table (Nat.le_succ n) env _ c _ hn
    rw [eval_concat_flat] at hflat
    rw [eval_concat_nested]
    exact evalAround_mono (Nat.le_succ n) (Nat.le_refl n) env as bs cs c _ hflat

end ExprLang
