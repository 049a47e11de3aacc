import ScriptConsole.Text.Extent

namespace ScriptConsole

/-- The bytes from `start` up to, and without, `stop`. -/
structure Span where
  start : Nat
  stop : Nat
  deriving DecidableEq, Repr

inductive Head where
  /-- Nothing stands in front of the name being typed. -/
  | topLevel
  | name (text : String)
  /-- A string or a number, as it stands in the source. -/
  | literal (source : String)
  deriving DecidableEq, Repr

def Head.source : Head → String
  | topLevel => ""
  | name text => text
  | literal source => source

/-- What stands between the parentheses of a call. -/
structure Arguments where
  source : String
  span : Span
  deriving DecidableEq, Repr

/-- A member link `.name` or `.name(…)`.  Its span runs from the name to the closing
parenthesis. -/
structure Segment where
  name : String
  arguments : Option Arguments
  span : Span
  deriving DecidableEq, Repr

namespace Segment

def isCall (s : Segment) : Bool := s.arguments.isSome

def source (s : Segment) : String :=
  match s.arguments with
  | none => s.name
  | some args => s.name ++ "(" ++ args.source ++ ")"

end Segment

/-- A head, the member links behind it and the name still being typed.  The sources of the parts are
kept, so that every initial part can be read as an expression. -/
structure AccessChain where
  /-- Where the expression being typed begins. -/
  start : Nat
  head : Head
  /-- Where the head stands; without one it is empty. -/
  headSpan : Span
  segments : List Segment
  /-- The name being typed; empty behind a final dot. -/
  stem : String
  deriving DecidableEq, Repr

namespace AccessChain

/-- `base` extended by member links. -/
def extend (base : String) (links : List Segment) : String :=
  links.foldl (fun source link => source ++ "." ++ link.source) base

/-- The source from the head through segment `i`, or of the head alone when there is no such
segment. -/
def fragment (c : AccessChain) (i : Nat) : String :=
  if i < c.segments.length then extend c.head.source (c.segments.take (i + 1)) else c.head.source

end AccessChain
end ScriptConsole
