import ScriptConsole.EvalError
import ScriptConsole.Text.Quoted
import ScriptConsole.Value.Basic

namespace ScriptConsole

/-- How many arguments a method takes. -/
inductive Arity where
  | exact (count : Nat)
  | atLeast (count : Nat)
  deriving DecidableEq, Repr

def Arity.accepts : Arity → Nat → Bool
  | exact n, count => count == n
  | atLeast n, count => n ≤ count

/-- What a method does with its receiver and its arguments.  It is a function of these alone: state
of its own that it keeps from call to call is left out. -/
abbrev Native := Value → List Value → Except EvalError Value

/-- One overload of a method. -/
structure Method where
  name : String
  returnType : String
  arity : Arity := .exact 0
  isStatic : Bool := false
  native : Option Native := none

namespace Method

def invoke (m : Method) (receiver : Value) (args : List Value) : Except EvalError Value :=
  match m.native with
  | some run => run receiver args
  | none => .error (.unsupported s!"`{m.name}` has no native implementation")

/-- A one-line account of a method for diagnostics. -/
def describe (m : Method) : String :=
  let arity := match m.arity with
    | .exact n => "Exact(" ++ toString n ++ ")"
    | .atLeast n => "AtLeast(" ++ toString n ++ ")"
  "MethodDef \x7b name: " ++ quoted m.name ++ ", return_type: " ++ quoted m.returnType ++
    ", arity: " ++ arity ++ ", is_static: " ++ toString m.isStatic ++
    ", native: " ++ toString m.native.isSome ++ " \x7d"

end Method

structure Field where
  name : String
  type : String
  isStatic : Bool := false
  deriving DecidableEq, Repr

inductive ClassKind where
  | concrete
  | interface
  deriving DecidableEq, Repr

structure ClassDecl where
  name : String
  kind : ClassKind := .concrete
  superclass : Option String := none
  interfaces : List String := []
  methods : List Method := []
  fields : List Field := []

/-- The direct supertypes: the superclass, then the interfaces.  A class that names no superclass
extends `java.lang.Object`, which alone has none. -/
def ClassDecl.supertypes (c : ClassDecl) : List String :=
  let implied :=
    if c.kind = .concrete ∧ c.name ≠ TypeName.object then some TypeName.object else none
  (c.superclass.or implied).toList ++ c.interfaces

end ScriptConsole
