import ScriptConsole.Member.Basic

namespace ScriptConsole

/-- The number of a kind in the Language Server Protocol. -/
def MemberKind.lspCode : MemberKind → Nat
  | method => 2
  | field => 5
  | binding => 6
  | type => 7
  | package => 9
  | keyword => 14

structure CompletionItem where
  label : String
  kind : MemberKind
  /-- The type or package that contributes the name, when known. -/
  detail : Option String
  deriving DecidableEq, Repr

structure CompletionConfig where
  /-- Text behind the label of an item that can be called. -/
  callMarker : String := "("
  /-- How many items are kept at most. -/
  limit : Option Nat := none
  deriving DecidableEq, Repr

namespace CompletionItem

def ofMember (m : Member) : CompletionItem :=
  ⟨m.name, m.kind, if m.owner.isEmpty then none else some m.owner⟩

def isInvocable (i : CompletionItem) : Bool := i.kind.isInvocable

/-- The text to insert. -/
def render (callMarker : String) (i : CompletionItem) : String :=
  if i.isInvocable then i.label ++ callMarker else i.label

end CompletionItem
end ScriptConsole
