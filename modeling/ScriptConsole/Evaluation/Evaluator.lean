import ScriptConsole.EvalError
import ScriptConsole.Scope

namespace ScriptConsole

/-- Turns the source of a closed expression into a value, by the scope and the source alone.  State
of its own that an evaluator keeps from one source to the next is left out. -/
abbrev Evaluator := Scope → String → Except EvalError Value

/-- Evaluates nothing, so that only declared types count. -/
def Evaluator.disabled : Evaluator := fun _ source =>
  .error (.unsupported s!"live evaluation disabled for `{source}`")

end ScriptConsole
