import ScriptConsole.ParseError

namespace ScriptConsole

inductive EvalError where
  | parse (error : ParseError)
  /-- A name that is neither bound, nor imported, nor a package. -/
  | unbound (name : String)
  | unknownMember (type member : String)
  /-- A method of that name exists, but none that takes so many arguments. -/
  | noMatchingOverload (type member : String) (count : Nat)
  /-- An instance member used on a class. -/
  | noInstance (type member : String)
  /-- A member used on `null`. -/
  | nullReceiver (member : String)
  /-- The called method itself failed. -/
  | thrown (text : String)
  /-- The expression may be right, but cannot be evaluated here. -/
  | unsupported (reason : String)
  deriving DecidableEq, Repr

namespace EvalError

def isUnsupported : EvalError → Bool
  | unsupported _ => true
  | _ => false

def message : EvalError → String
  | parse error => s!"malformed expression: {error.message}"
  | unbound name => s!"`{name}` is not defined"
  | unknownMember type member => s!"`{type}` has no member `{member}`"
  | noMatchingOverload type member count =>
    s!"no overload of `{type}.{member}` takes {count} argument(s)"
  | noInstance type member => s!"`{type}.{member}` needs an instance"
  | nullReceiver member => s!"cannot read `{member}` of null"
  | thrown text => text
  | unsupported reason => s!"cannot evaluate: {reason}"

end EvalError
end ScriptConsole
