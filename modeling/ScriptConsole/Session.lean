import ScriptConsole.Completion.Line
import ScriptConsole.Evaluation.Interpreter

namespace ScriptConsole

inductive SessionError where
  | parse (error : ParseError)
  | eval (error : EvalError)
  | unknownClass (name : String)
  | unknownPackage (path : String)
  | invalidIdentifier (name : String)
  /-- An import without exactly one class or package name. -/
  | invalidImport (statement : String)
  deriving DecidableEq, Repr

def SessionError.message : SessionError → String
  | parse error => error.message
  | eval error => error.message
  | unknownClass name => s!"unknown class `{name}`"
  | unknownPackage path => s!"unknown package `{path}`"
  | invalidIdentifier name => s!"`{name}` is not a valid identifier"
  | invalidImport statement => s!"`{statement}` expects a single qualified name"

structure Session where
  scope : Scope
  registry : Registry
  config : CompletionConfig

/-- The result of an operation and the session after it. -/
abbrev Outcome (α : Type) := Except SessionError α × Session

namespace Session

/-- A new session offers every root package at top level. -/
def new (registry : Registry) (config : CompletionConfig) : Session :=
  let roots := (registry.children "").filter (·.kind == .package)
  ⟨roots.foldl (fun scope root => scope.addRoot root.name) .empty, registry, config⟩

/-- Imports a registered class, and yields the simple name it goes by. -/
def importClass (s : Session) (q : String) : Outcome String :=
  if s.registry.hasClass q then
    (.ok (QualifiedName.simple q), { s with scope := s.scope.importClass q })
  else (.error (.unknownClass q), s)

def importPackage (s : Session) (path : String) : Outcome Unit :=
  if s.registry.isPackage path then (.ok (), { s with scope := s.scope.importPackage path })
  else (.error (.unknownPackage path), s)

/-- Binds an identifier, in the place of an earlier binding. -/
def bind (s : Session) (name : String) (v : Value) : Outcome Unit :=
  if isIdentifier name then (.ok (), { s with scope := s.scope.bind name v })
  else (.error (.invalidIdentifier name), s)

/-- The name in an import: a dotted path or a string. -/
def importTarget? : List Expr → Option String
  | [.literal (.string text)] => some text
  | [arg] => arg.path?
  | _ => none

/-- Puts the value of a statement in the place of what an operation yields. -/
def yielding {α : Type} (v : Value) (o : Outcome α) : Outcome Value := (o.1.map fun _ => v, o.2)

/-- Runs an import statement, which yields `void`. -/
def runImport (s : Session) (statement : String) (args : List Expr) : Outcome Value :=
  match importTarget? args with
  | none => (.error (.invalidImport statement), s)
  | some target =>
    if statement = importClassKeyword then yielding .void (s.importClass target)
    else yielding .void (s.importPackage target)

def evaluate (s : Session) (e : Expr) : Except SessionError Value :=
  (s.registry.evalExpr s.scope e).mapError .eval

/-- Runs a statement.  An assignment yields the value assigned. -/
def run (s : Session) : Statement → Outcome Value
  | .assign target e =>
    match s.evaluate e with
    | .error error => (.error error, s)
    | .ok v => yielding v (s.bind target v)
  | .expr (.call function args) =>
    if function = importClassKeyword ∨ function = importPackageKeyword then
      s.runImport function args
    else (s.evaluate (.call function args), s)
  | .expr e => (s.evaluate e, s)

def execute (s : Session) (line : String) : Outcome Value :=
  match parseStatement line with
  | .error error => (.error (.parse error), s)
  | .ok statement => s.run statement

/-- What the session completes against: its scope, and its registry for types and for values. -/
def environment (s : Session) : Environment :=
  ⟨s.scope, s.registry.catalog, s.registry.interpret⟩

def items (s : Session) (input : String) (cursor : Nat) : List CompletionItem :=
  s.environment.items s.config input cursor

def complete (s : Session) (input : String) (cursor : Nat) (out : List String) :
    Nat × List String :=
  s.environment.complete s.config input cursor out

end Session
end ScriptConsole
