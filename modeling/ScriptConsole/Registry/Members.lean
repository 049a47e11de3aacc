import ScriptConsole.Catalog
import ScriptConsole.Registry.Supertypes

namespace ScriptConsole

/-- The members that a class declares itself, methods in front of fields. -/
def ClassDecl.ownMembers (c : ClassDecl) : List Member :=
  c.methods.map (fun m => ⟨m.name, .method, c.name⟩) ++
    c.fields.map (fun f => ⟨f.name, .field, c.name⟩)

namespace Registry

/-- The overloads of a method, nearest declaration first. -/
def overloads (r : Registry) (type name : String) : List Method :=
  ((r.hierarchy type).flatMap ClassDecl.methods).filter (·.name == name)

/-- The nearest declaration of a field. -/
def field? (r : Registry) (type name : String) : Option Field :=
  ((r.hierarchy type).flatMap ClassDecl.fields).find? (·.name == name)

/-- All members of a type; nothing for an unknown type. -/
def membersOf (r : Registry) (type : String) : Option MemberSet :=
  match r.hierarchy type with
  | [] => none
  | classes => some (.ofList (classes.flatMap ClassDecl.ownMembers))

/-- The types that methods return, each at its first place, `void` left out. -/
def returnTypes (methods : List Method) : List String :=
  ((methods.map Method.returnType).filter (· != TypeName.void)).eraseDups

/-- The signature of a member.  A method hides a field of the same name. -/
def signature (r : Registry) (type name : String) : Option Signature :=
  match r.overloads type name with
  | [] => (r.field? type name).map fun f => ⟨.field, [f.type]⟩
  | methods => some ⟨.method, returnTypes methods⟩

/-- The packages and classes directly inside `path`, by name.  A package hides a class of the same
name. -/
def children (r : Registry) (path : String) : List Member :=
  let packages := (r.packages.filterMap (QualifiedName.child? path)).map fun name =>
    (⟨name, .package, path⟩ : Member)
  let classes := (r.classes.filter fun c => (QualifiedName.parent? c.name).getD "" == path).map
    fun c => (⟨QualifiedName.simple c.name, .type, path⟩ : Member)
  (MemberSet.ofList (packages ++ classes)).members.mergeSort fun a b => a.name ≤ b.name

def catalog (r : Registry) : Catalog where
  membersOf := r.membersOf
  signature := r.signature
  hasClass := r.hasClass
  isPackage := r.isPackage
  children := r.children

end Registry
end ScriptConsole
