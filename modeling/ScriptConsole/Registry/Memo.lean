import ScriptConsole.Entries
import ScriptConsole.Registry.Members

namespace ScriptConsole

/-- A registry that remembers the member sets it has worked out. -/
structure Memo where
  registry : Registry
  /-- Member sets by type. -/
  remembered : Entries MemberSet

namespace Memo

def ofRegistry (r : Registry) : Memo := ⟨r, []⟩

/-- A new class may change the members of any type, so nothing is remembered across it. -/
def addClass (m : Memo) (c : ClassDecl) : Memo := ⟨m.registry.addClass c, []⟩

def addPackage (m : Memo) (path : String) : Memo := ⟨m.registry.addPackage path, m.remembered⟩

/-- The members of a type.  Those of a known type are remembered. -/
def membersOf (m : Memo) (type : String) : Option MemberSet × Memo :=
  match m.remembered.get? type with
  | some members => (some members, m)
  | none =>
    match m.registry.membersOf type with
    | none => (none, m)
    | some members => (some members, ⟨m.registry, m.remembered.set type members⟩)

end Memo
end ScriptConsole
