import ScriptConsole.Member.Set

namespace ScriptConsole

/-- The shape of a member, overloads and supertypes taken together.  The types are those of its
values, distinct, nearest declaration first; a method that returns nothing adds none. -/
structure Signature where
  kind : MemberKind
  types : List String
  deriving DecidableEq, Repr

/-- What is known about types and packages, whatever knows it. -/
structure Catalog where
  /-- All members of a type, inherited ones too; nothing for an unknown type. -/
  membersOf : String → Option MemberSet
  /-- The signature of a type's member of a given name. -/
  signature : String → String → Option Signature
  hasClass : String → Bool
  isPackage : String → Bool
  /-- The packages and classes directly inside a package, or inside the root `""`. -/
  children : String → List Member

end ScriptConsole
