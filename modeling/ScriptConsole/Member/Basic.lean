namespace ScriptConsole

inductive MemberKind where
  | method
  | field
  /-- A console statement such as `importClass`. -/
  | keyword
  /-- A name bound in the session. -/
  | binding
  | type
  | package
  deriving DecidableEq, Repr

/-- Kinds that a list of arguments may follow. -/
def MemberKind.isInvocable : MemberKind → Bool
  | method | keyword => true
  | _ => false

structure Member where
  name : String
  kind : MemberKind
  /-- The type or package that contributes the name; empty when there is none. -/
  owner : String
  deriving DecidableEq, Repr

end ScriptConsole
