import ScriptConsole.Proofs.Registry.Kinds
import ScriptConsole.Proofs.Registry.Packages
import ScriptConsole.Resolution.Chain

namespace ScriptConsole

/-- The reference has types: it is to a value, a type or one of several types. -/
def Reference.IsTyped : Reference → Prop
  | .value _ _ | .static _ | .union _ => True
  | _ => False

theorem members_typed (current : Reference) (h : current.IsTyped) (scope : Scope)
    (catalog : Catalog) (name : String) :
    name ∈ (current.members scope catalog).names ↔
      ∃ type ∈ current.types, ∃ members, catalog.membersOf type = some members ∧
        name ∈ members.names := by
  have hmembers : current.members scope catalog =
      (current.types.filterMap catalog.membersOf).foldl .union .empty := by
    cases current with
    | value _ _ | static _ | union _ => rfl
    | topLevel | package _ | unresolved => exact h.elim
  rw [hmembers, MemberSet.mem_names_unions, or_iff_right (by exact List.not_mem_nil)]
  simp only [List.mem_filterMap]
  constructor
  · rintro ⟨members, ⟨type, htype, hsome⟩, hname⟩
    exact ⟨type, htype, members, hsome, hname⟩
  · rintro ⟨type, htype, members, hsome, hname⟩
    exact ⟨members, ⟨type, htype, hsome⟩, hname⟩

/-- A step into a package leads on exactly to its classes and packages. -/
theorem followField_package_iff (env : Environment) (path : QualifiedName) (name : String) :
    env.followField (.package path) name ≠ .unresolved ↔
      env.catalog.hasClass (QualifiedName.join path name) = true ∨
        env.catalog.isPackage (QualifiedName.join path name) = true := by
  unfold Environment.followField
  dsimp only
  split
  · next hclass => simp [hclass]
  · next hclass =>
    split
    · next hpackage => simp [hpackage]
    · next hpackage => simp [hclass, hpackage]

/-- What is offered is known.  Behind a reference with types these are the names of which one of the
types has a member, and in a package those of its classes and packages, which a step leads on to. -/
theorem offered_iff_known (calls : List Registration) (env : Environment)
    (hcatalog : env.catalog = (Registry.build calls).catalog) (name : String) (hname : name ≠ "")
    (hdot : '.' ∉ name.toList) :
    (∀ current : Reference, current.IsTyped →
      (name ∈ (current.members env.scope env.catalog).names ↔
        ∃ type ∈ current.types, (env.catalog.signature type name).isSome = true)) ∧
    ∀ path : QualifiedName, path ≠ "" →
      (name ∈ ((Reference.package path).members env.scope env.catalog).names ↔
        env.catalog.hasClass (QualifiedName.join path name) = true ∨
          env.catalog.isPackage (QualifiedName.join path name) = true) ∧
      (name ∈ ((Reference.package path).members env.scope env.catalog).names ↔
        env.followField (.package path) name ≠ .unresolved) := by
  constructor
  · intro current htyped
    rw [members_typed current htyped, hcatalog]
    have htype : ∀ type, (∃ members, (Registry.build calls).catalog.membersOf type = some members ∧
        name ∈ members.names) ↔
          ((Registry.build calls).catalog.signature type name).isSome = true := by
      intro type
      exact (mem_membersOf _ type name).trans (isSome_signature _ type name).symm
    simp only [htype]
  · intro path hpath
    rw [followField_package_iff, and_self, hcatalog]
    have hchildren := (Registry.build_closed calls).mem_children_iff hpath hname hdot
    exact MemberSet.mem_names_ofList.trans hchildren

/-- Two classes of one package, and a package without classes. -/
def exampleEnvironment : Environment where
  scope := .empty
  catalog := (Registry.build [
    .type { name := "java.util.List", superclass := some "java.util.Collection" },
    .type { name := "java.util.Collection", methods := [{ name := "size", returnType := "int" }] },
    .package "org.example.tools"]).catalog
  evaluator := .disabled

theorem offered_example :
    "size" ∈ ((Reference.static "java.util.List").members exampleEnvironment.scope
        exampleEnvironment.catalog).names ∧
      "List" ∈ ((Reference.package "java.util").members exampleEnvironment.scope
        exampleEnvironment.catalog).names ∧
      exampleEnvironment.followField (.package "org") "example" ≠ .unresolved := by
  have hsize := offered_iff_known _ exampleEnvironment rfl "size" (by decide) (by decide)
  have hlist := offered_iff_known _ exampleEnvironment rfl "List" (by decide) (by decide)
  have hexample := offered_iff_known _ exampleEnvironment rfl "example" (by decide) (by decide)
  refine ⟨?_, ?_, ?_⟩
  · rw [hsize.1 (.static "java.util.List") trivial]
    exact ⟨_, List.mem_singleton_self _, by decide +kernel⟩
  · rw [(hlist.2 "java.util" (by decide)).1]
    left
    decide +kernel
  · rw [← (hexample.2 "org" (by decide)).2]
    decide +kernel

end ScriptConsole
