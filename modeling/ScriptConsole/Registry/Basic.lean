import ScriptConsole.Declaration
import ScriptConsole.QualifiedName

namespace ScriptConsole

structure Registry where
  classes : List ClassDecl
  packages : List String

namespace Registry

def empty : Registry := ⟨[], []⟩

def class? (r : Registry) (name : String) : Option ClassDecl :=
  r.classes.find? (·.name == name)

def hasClass (r : Registry) (name : String) : Bool := (r.class? name).isSome

def isPackage (r : Registry) (path : String) : Bool := r.packages.contains path

/-- Makes a package and its ancestors known.  The ancestors of a known package are known. -/
def addPackage (r : Registry) (path : String) : Registry :=
  { r with packages :=
      r.packages ++ (QualifiedName.lineage path).takeWhile fun p => !r.packages.contains p }

/-- Stores `c` in the place of the class of the same name, else at the end. -/
def putClass (c : ClassDecl) : List ClassDecl → List ClassDecl
  | [] => [c]
  | d :: ds => if d.name = c.name then c :: ds else d :: putClass c ds

/-- Registers a class, or replaces the class of the same name.  Its package becomes known. -/
def addClass (r : Registry) (c : ClassDecl) : Registry :=
  let r := match QualifiedName.parent? c.name with
    | some package => r.addPackage package
    | none => r
  { r with classes := putClass c r.classes }

theorem classes_addClass (r : Registry) (c : ClassDecl) :
    (r.addClass c).classes = putClass c r.classes := by
  unfold addClass
  cases QualifiedName.parent? c.name <;> rfl

theorem find?_putClass (c : ClassDecl) (ds : List ClassDecl) (name : String) :
    (putClass c ds).find? (·.name == name) =
      if c.name = name then some c else ds.find? (·.name == name) := by
  induction ds with
  | nil => by_cases h : c.name = name <;> simp [putClass, h]
  | cons d ds ih =>
    by_cases hd : d.name = c.name
    · by_cases h : c.name = name <;> simp [putClass, hd, h]
    · rw [putClass, if_neg hd, List.find?_cons, List.find?_cons, ih]
      by_cases h : c.name = name
      · have hne : (d.name == name) = false := by simpa using fun e => hd (e.trans h.symm)
        simp [h, hne]
      · simp [h]

theorem class?_addClass (r : Registry) (c : ClassDecl) (name : String) :
    (r.addClass c).class? name = if c.name = name then some c else r.class? name := by
  rw [class?, classes_addClass, find?_putClass]
  rfl

end Registry
end ScriptConsole
