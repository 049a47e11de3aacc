import ScriptConsole.Scope

namespace ScriptConsole

inductive Reference where
  /-- Nothing stands in front. -/
  | topLevel
  /-- A live value and its dynamic type. -/
  | value (value : Value) (type : String)
  /-- A type without an instance. -/
  | static (type : String)
  /-- One of several declared types. -/
  | union (types : List String)
  | package (path : QualifiedName)
  /-- Nothing can be said, so nothing is offered. -/
  | unresolved

namespace Reference

/-- The reference to a value.  `null` and `void` have no members. -/
def ofValue (v : Value) : Reference :=
  match v.type? with
  | none => unresolved
  | some type => if type = TypeName.void then unresolved else value v type

/-- The reference to a value of one of the declared types. -/
def ofTypes (types : List String) : Reference :=
  match types.filter (· != TypeName.void) with
  | [] => unresolved
  | [type] => static type
  | types => union types

def isUnresolved : Reference → Bool
  | unresolved => true
  | _ => false

/-- The types whose members are offered. -/
def types : Reference → List String
  | value _ type | static type => [type]
  | union types => types
  | _ => []

/-- The members that can be completed. -/
def members (scope : Scope) (catalog : Catalog) : Reference → MemberSet
  | topLevel => scope.topLevel
  | package path => .ofList (catalog.children path)
  | r => (r.types.filterMap catalog.membersOf).foldl .union .empty

end Reference
end ScriptConsole
