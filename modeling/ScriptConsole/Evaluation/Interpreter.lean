import ScriptConsole.Evaluation.Evaluator
import ScriptConsole.Expr.Parser
import ScriptConsole.Registry.Members

namespace ScriptConsole

def Literal.toValue : Literal → Value
  | string text => .string text
  | integer n => .integer n
  | boolean b => .boolean b
  | null => .null

/-- The value referred to.  Classes and packages are none. -/
def Referent.toValue : Referent → Except EvalError Value
  | value v => .ok v
  | type name => .error (.unsupported s!"`{name}` is a class, not a value")
  | package path => .error (.unsupported s!"`{path}` is a package, not a value")

namespace Registry
variable (r : Registry)

/-- Reads `receiver.member`.  A declared field that is not stored is `null`. -/
def readMember (receiver : Referent) (member : String) : Except EvalError Referent :=
  match receiver with
  | .package path =>
    let inner := QualifiedName.join path member
    if r.hasClass inner then .ok (.type inner)
    else if r.isPackage inner then .ok (.package inner)
    else .error (.unbound inner)
  | .type name =>
    match r.field? name member with
    | none => .error (.unknownMember name member)
    | some f =>
      if f.isStatic then .error (.unsupported s!"static field `{name}.{member}`")
      else .error (.noInstance name member)
  | .value v =>
    match v.type? with
    | none => .error (.nullReceiver member)
    | some type =>
      match r.field? type member with
      | none => .error (.unknownMember type member)
      | some _ => .ok (.value ((v.stored? member).getD .null))

/-- The overload that a call of `type.member` with `count` arguments runs. -/
def selectOverload (type member : String) (count : Nat) : Except EvalError Method :=
  match r.overloads type member with
  | [] => .error (.unknownMember type member)
  | methods =>
    match methods.find? (·.arity.accepts count) with
    | some m => .ok m
    | none => .error (.noMatchingOverload type member count)

/-- Calls `receiver.member`.  On a class only static methods run, with `null` as receiver. -/
def callMember (receiver : Referent) (member : String) (args : List Value) :
    Except EvalError Value :=
  match receiver with
  | .package path => .error (.unbound (QualifiedName.join path member))
  | .type name => do
    let m ← r.selectOverload name member args.length
    if m.isStatic then m.invoke .null args else .error (.noInstance name member)
  | .value v =>
    match v.type? with
    | none => .error (.nullReceiver member)
    | some type => do
      let m ← r.selectOverload type member args.length
      m.invoke v args

variable (s : Scope)

mutual

/-- What an expression refers to.  A receiver is evaluated before the arguments, and these from left
to right. -/
def denote : Expr → Except EvalError Referent
  | .literal l => .ok (.value l.toValue)
  | .name text =>
    match s.resolve r.catalog text with
    | some referent => .ok referent
    | none => .error (.unbound text)
  | .call function _ => .error (.unsupported s!"top-level function `{function}`")
  | .field receiver member => do
    let receiver ← denote receiver
    r.readMember receiver member
  | .invoke receiver member args => do
    let receiver ← denote receiver
    let args ← denoteValues args
    let v ← r.callMember receiver member args
    pure (.value v)

def denoteValues : List Expr → Except EvalError (List Value)
  | [] => .ok []
  | arg :: args => do
    let referent ← denote arg
    let v ← referent.toValue
    let vs ← denoteValues args
    pure (v :: vs)

end

def evalExpr (e : Expr) : Except EvalError Value := do
  let referent ← r.denote s e
  referent.toValue

/-- The evaluator that runs expressions against the registry. -/
def interpret : Evaluator := fun s source =>
  match parseExpression source with
  | .error e => .error (.parse e)
  | .ok e => r.evalExpr s e

end Registry
end ScriptConsole
