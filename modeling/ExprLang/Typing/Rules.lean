import ExprLang.Env
import ExprLang.FunctionTable

/-!
# Typing rules

The judgement that an expression has a type, by one rule for each kind of node.  It does not say
how a type is found, nor in which order the premises are looked at.
-/

set_option autoImplicit false

namespace ExprLang

/-- `HasType table env e t`: with the functions of `table` and variables of the types in `env`,
the expression `e` has type `t`. -/
inductive HasType (table : FunctionTable) : Env Ty → Expr → Ty → Prop
  | lit {env : Env Ty} (v : Value) : HasType table env (.lit v) v.type
  | var {env : Env Ty} {x : Name} {t : Ty} :
      env.find? x = some t → HasType table env (.var x) t
  | arithmetic {env : Env Ty} {op : BinOp} {left right : Expr} :
      op ∈ [BinOp.add, .sub, .mul, .div, .mod] →
      HasType table env left .int → HasType table env right .int →
      HasType table env (.binop op left right) .int
  | comparison {env : Env Ty} {op : BinOp} {left right : Expr} :
      op ∈ [BinOp.gt, .lt] →
      HasType table env left .int → HasType table env right .int →
      HasType table env (.binop op left right) .bool
  | equality {env : Env Ty} {left right : Expr} {t : Ty} :
      HasType table env left t → HasType table env right t →
      HasType table env (.binop .eq left right) .bool
  | connective {env : Env Ty} {op : BinOp} {left right : Expr} :
      op ∈ [BinOp.and, .or] →
      HasType table env left .bool → HasType table env right .bool →
      HasType table env (.binop op left right) .bool
  | not {env : Env Ty} {e : Expr} :
      HasType table env e .bool → HasType table env (.not e) .bool
  | letIn {env : Env Ty} {x : Name} {bound body : Expr} {t u : Ty} :
      HasType table env bound t → HasType table (env.bind x t) body u →
      HasType table env (.letIn x bound body) u
  | ite {env : Env Ty} {test yes no : Expr} {t : Ty} :
      HasType table env test .bool → HasType table env yes t → HasType table env no t →
      HasType table env (.ite test yes no) t
  | call {env : Env Ty} {f : Name} {args : List Expr} {d : Definition} :
      table[f]? = some d → d.params.length = args.length →
      (∀ p ∈ (d.params.map Prod.snd).zip args, HasType table env p.2 p.1) →
      HasType table env (.call f args) d.result
  | concat {env : Env Ty} {parts : List Expr} :
      (∀ e ∈ parts, HasType table env e .string) → HasType table env (.concat parts) .string
  | print {env : Env Ty} {e : Expr} :
      HasType table env e .string → HasType table env (.print e) .unit
  | input {env : Env Ty} : HasType table env .input .string
  | cast {env : Env Ty} {e : Expr} {t : Ty} (target : Ty) :
      HasType table env e t → HasType table env (.cast target e) target

end ExprLang
