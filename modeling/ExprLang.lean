import ExprLang.Env.Frames
import ExprLang.Env.Workspace
import ExprLang.Eval.Budget
import ExprLang.Expr.Scope
import ExprLang.Main
import ExprLang.Proofs.AcyclicCalls
import ExprLang.Proofs.Agreement
import ExprLang.Proofs.CallsAsBindings
import ExprLang.Proofs.CanonicalTexts
import ExprLang.Proofs.Composed
import ExprLang.Proofs.Computations
import ExprLang.Proofs.Concatenation
import ExprLang.Proofs.Coupling
import ExprLang.Proofs.DecimalTexts
import ExprLang.Proofs.Declarations
import ExprLang.Proofs.DefinitionOrder
import ExprLang.Proofs.Derivability
import ExprLang.Proofs.Diagnostics
import ExprLang.Proofs.Division
import ExprLang.Proofs.EffectSources
import ExprLang.Proofs.ErrorOrder
import ExprLang.Proofs.ErrorSources
import ExprLang.Proofs.EvaluationRules
import ExprLang.Proofs.FirstError
import ExprLang.Proofs.InputLines
import ExprLang.Proofs.Interchange
import ExprLang.Proofs.ModularChecking
import ExprLang.Proofs.Nodes
import ExprLang.Proofs.Observation
import ExprLang.Proofs.OutputFaults
import ExprLang.Proofs.PersistentEnvironments
import ExprLang.Proofs.PrintedLines
import ExprLang.Proofs.Quotation
import ExprLang.Proofs.ReachedDefinitions
import ExprLang.Proofs.ReachedNodes
import ExprLang.Proofs.RecursiveFunctions
import ExprLang.Proofs.Renaming
import ExprLang.Proofs.ScopeSafety
import ExprLang.Proofs.Scoping
import ExprLang.Proofs.SharedFrames
import ExprLang.Proofs.Soundness
import ExprLang.Proofs.StaticScoping
import ExprLang.Proofs.StepByStep
import ExprLang.Proofs.StreamUses
import ExprLang.Proofs.SummedLines
import ExprLang.Proofs.Termination
import ExprLang.Proofs.TrueErrors
import ExprLang.Proofs.UnreadInput
import ExprLang.Proofs.WrappingArithmetic
import ExprLang.Session
import ExprLang.Typing.Rules
