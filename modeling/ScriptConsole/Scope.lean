import ScriptConsole.Catalog
import ScriptConsole.Entries
import ScriptConsole.QualifiedName
import ScriptConsole.Value.Basic

namespace ScriptConsole

/-- What a name or a chain of names refers to. -/
inductive Referent where
  | value (value : Value)
  | type (name : QualifiedName)
  | package (path : QualifiedName)

structure Scope where
  bindings : Entries Value
  /-- Qualified names under their simple names. -/
  importedClasses : Entries QualifiedName
  importedPackages : List QualifiedName
  /-- Console statements offered at top level. -/
  keywords : List String
  /-- Packages offered at top level. -/
  roots : List String

/-- The console statements that import a class and a package. -/
def importClassKeyword : String := "importClass"
def importPackageKeyword : String := "importPackage"

def consoleKeywords : List String := [importClassKeyword, importPackageKeyword]

namespace Scope

/-- A new scope holds the console statements and nothing else. -/
def empty : Scope := ⟨[], [], [], consoleKeywords, []⟩

/-- Adds `x` at the end unless it is there already. -/
def appendNew (xs : List String) (x : String) : List String := if x ∈ xs then xs else xs ++ [x]

theorem mem_appendNew {xs : List String} {x y : String} : y ∈ appendNew xs x ↔ y ∈ xs ∨ y = x := by
  unfold appendNew
  split
  · next h => exact ⟨.inl, fun hy => hy.elim id (fun e => e ▸ h)⟩
  · simp

/-- Binds `name`, in the place of an earlier binding. -/
def bind (s : Scope) (name : String) (v : Value) : Scope :=
  { s with bindings := s.bindings.set name v }

/-- Makes a class known by its simple name. -/
def importClass (s : Scope) (q : QualifiedName) : Scope :=
  { s with importedClasses := s.importedClasses.set (QualifiedName.simple q) q }

/-- Makes every class of a package known by its simple name. -/
def importPackage (s : Scope) (path : QualifiedName) : Scope :=
  { s with importedPackages := appendNew s.importedPackages path }

def addRoot (s : Scope) (root : String) : Scope := { s with roots := appendNew s.roots root }

def binding? (s : Scope) (name : String) : Option Value := s.bindings.get? name

def importedClass? (s : Scope) (simple : String) : Option QualifiedName :=
  s.importedClasses.get? simple

/-- Everything that can be completed at top level: bindings, imported classes, console statements
and root packages, in this order, the first of each name. -/
def topLevel (s : Scope) : MemberSet :=
  .ofList (s.bindings.map (fun b => ⟨b.1, .binding, ""⟩) ++
    s.importedClasses.map (fun c => ⟨c.1, .type, c.2⟩) ++
    s.keywords.map (fun k => ⟨k, .keyword, ""⟩) ++
    s.roots.map (fun r => ⟨r, .package, ""⟩))

/-- The class of this simple name in the package imported first. -/
def packageClass? (s : Scope) (catalog : Catalog) (name : String) : Option QualifiedName :=
  (s.importedPackages.map (QualifiedName.join · name)).find? catalog.hasClass

/-- What a name refers to.  A binding comes before an imported class, this before a class of an
imported package, and all of these before a package. -/
def resolve (s : Scope) (catalog : Catalog) (name : String) : Option Referent :=
  match s.binding? name with
  | some v => some (.value v)
  | none =>
    match (s.importedClass? name).or (s.packageClass? catalog name) with
    | some q => some (.type q)
    | none =>
      if s.roots.contains name || catalog.isPackage name then some (.package name) else none

end Scope
end ScriptConsole
