import ScriptConsole.Chain.Basic
import ScriptConsole.Evaluation.Evaluator
import ScriptConsole.Expr.Literal
import ScriptConsole.Resolution.Reference

namespace ScriptConsole

/-- What a chain is resolved against. -/
structure Environment where
  scope : Scope
  catalog : Catalog
  evaluator : Evaluator

/-- A reference, and the sources that the evaluator was asked for on the way, in order. -/
structure Resolution where
  reference : Reference
  asked : List String

/-- The reference to a value of the types that the signatures declare. -/
def Reference.declared (signatures : List Signature) : Reference :=
  ofTypes (signatures.flatMap Signature.types).eraseDups

/-- The value that a literal in the source denotes. -/
def literalValue? (source : String) : Option Value :=
  match unquote source with
  | some text => some (.string text)
  | none => (integerValue? source).map .integer

def Referent.toReference : Referent → Reference
  | value v => .ofValue v
  | type name => .static name
  | package path => .package path

namespace Environment
variable (env : Environment)

def resolveHead : Head → Reference
  | .topLevel => .topLevel
  | .name text =>
    match env.scope.resolve env.catalog text with
    | some referent => referent.toReference
    | none => .unresolved
  | .literal source =>
    match literalValue? source with
    | some v => .ofValue v
    | none => .unresolved

/-- The signatures of a name on every type of a reference. -/
def signatures (current : Reference) (name : String) : List Signature :=
  current.types.filterMap fun type => env.catalog.signature type name

/-- The reference `.name` behind `current`. -/
def followField (current : Reference) (name : String) : Reference :=
  match current with
  | .package path =>
    let inner := QualifiedName.join path name
    if env.catalog.hasClass inner then .static inner
    else if env.catalog.isPackage inner then .package inner
    else .unresolved
  | .value v _ =>
    let found := env.signatures current name
    match v.stored? name with
    | none => .declared found
    | some stored =>
      if !stored.isNull && found.any (·.kind == .field) then .ofValue stored else .declared found
  | .static _ | .union _ => .declared (env.signatures current name)
  | .topLevel | .unresolved => .unresolved

/-- The reference to what a call yielded, or else to what its signatures declare. -/
def ofOutcome (found : List Signature) : Except EvalError Value → Reference
  | .ok .void => .unresolved
  | .ok .null => .declared found
  | .ok v => .ofValue v
  | .error (.unsupported _) => .declared found
  | .error _ => .unresolved

/-- The reference `.name(…)` behind `current`.  The evaluator is asked for `source` only when there
is a method of that name. -/
def followCall (current : Reference) (name source : String) : Resolution :=
  match (env.signatures current name).filter (·.kind == .method) with
  | [] => ⟨.unresolved, []⟩
  | found => ⟨ofOutcome found (env.evaluator env.scope source), [source]⟩

/-- One step behind `current`, the chain through this segment being `source`. -/
def step (current : Reference) (segment : Segment) (source : String) : Resolution :=
  if segment.isCall then env.followCall current segment.name source
  else ⟨env.followField current segment.name, []⟩

/-- Moves on through the segments behind `current`, which `source` spells. -/
def follow (current : Reference) (source : String) : List Segment → Resolution
  | [] => ⟨current, []⟩
  | segment :: segments =>
    if current.isUnresolved then ⟨.unresolved, []⟩
    else
      let source := AccessChain.extend source [segment]
      let next := env.step current segment source
      let last := follow next.reference source segments
      ⟨last.reference, next.asked ++ last.asked⟩

/-- What stands in front of the name being typed.  The head is looked up in the scope, and each
segment moves on from the reference in front of it; the first that cannot be resolved leaves the
whole chain unresolved. -/
def resolve (chain : AccessChain) : Resolution :=
  env.follow (env.resolveHead chain.head) chain.head.source chain.segments

end Environment
end ScriptConsole
