import Mathlib.Data.List.Induction
import ScriptConsole.Proofs.Registry.Lineage
import ScriptConsole.Registry.Members

namespace ScriptConsole

open QualifiedName

/-- A call that registers something. -/
inductive Registration where
  | type (c : ClassDecl)
  | package (path : String)

/-- The package that becomes known with its ancestors; empty when there is none. -/
def Registration.home : Registration → QualifiedName
  | type c => (parent? c.name).getD ""
  | package path => path

namespace Registry

def register (r : Registry) : Registration → Registry
  | .type c => r.addClass c
  | .package path => r.addPackage path

/-- What the calls make of an empty registry. -/
def build (calls : List Registration) : Registry := calls.foldl register empty

/-- The ancestors of known packages are known. -/
def Closed (r : Registry) : Prop := ∀ p ∈ r.packages, lineage p ⊆ r.packages

theorem build_concat (calls : List Registration) (call : Registration) :
    build (calls ++ [call]) = (build calls).register call := by
  simp [build]

theorem packages_register (r : Registry) (call : Registration) :
    (r.register call).packages = (r.addPackage call.home).packages := by
  cases call with
  | package path => rfl
  | type c =>
    rw [register, addClass, Registration.home]
    cases parent? c.name with
    | none => simp [addPackage, lineage]
    | some package => rfl

/-- The search for unknown ancestors may end at the first known one, whose own are known. -/
theorem mem_unknown (known : List String) (h : ∀ p ∈ known, lineage p ⊆ known) (path p : String) :
    p ∈ known ∨ p ∈ (lineage path).takeWhile (fun q => !known.contains q) ↔
      p ∈ known ∨ p ∈ lineage path := by
  fun_induction lineage path with
  | case1 => simp
  | case2 path => by_cases hpath : path ∈ known <;> simp_all
  | case3 path hne parent hparent ih =>
    by_cases hpath : path ∈ known
    · have hold := h path hpath
      rw [lineage_cons (by simpa using hne) hparent] at hold
      rw [List.takeWhile_cons_of_neg (by simpa using hpath)]
      simpa using @hold p
    · rw [List.takeWhile_cons_of_pos (by simpa using hpath), List.mem_cons, List.mem_cons,
        or_left_comm, ih, or_left_comm]

theorem mem_packages_addPackage {r : Registry} (h : r.Closed) (path p : String) :
    p ∈ (r.addPackage path).packages ↔ p ∈ r.packages ∨ p ∈ lineage path := by
  rw [addPackage, List.mem_append]
  exact mem_unknown r.packages h path p

theorem Closed.register {r : Registry} (h : r.Closed) (call : Registration) :
    (r.register call).Closed := by
  intro p hp q hq
  rw [packages_register, mem_packages_addPackage h] at hp ⊢
  rcases hp with hp | hp
  · left
    exact h p hp hq
  · right
    exact lineage_subset hp hq

theorem build_closed (calls : List Registration) : (build calls).Closed := by
  induction calls using List.reverseRecOn with
  | nil => exact fun p hp => (List.not_mem_nil hp).elim
  | append_singleton calls call ih =>
    rw [build_concat]
    exact ih.register call

/-- The packages of registered classes are known. -/
def Housed (r : Registry) : Prop :=
  ∀ c ∈ r.classes, lineage (Registration.type c).home ⊆ r.packages

theorem mem_of_mem_putClass (c d : ClassDecl) (ds : List ClassDecl) (h : d ∈ putClass c ds) :
    d = c ∨ d ∈ ds := by
  induction ds with
  | nil => exact .inl (List.mem_singleton.1 h)
  | cons e ds ih =>
    rw [putClass] at h
    split at h
    · rcases List.mem_cons.1 h with rfl | h
      · exact .inl rfl
      · exact .inr (List.mem_cons_of_mem _ h)
    · rcases List.mem_cons.1 h with rfl | h
      · exact .inr List.mem_cons_self
      · exact (ih h).imp_right (List.mem_cons_of_mem _)

theorem classes_register (r : Registry) (call : Registration) (d : ClassDecl)
    (h : d ∈ (r.register call).classes) : .type d = call ∨ d ∈ r.classes := by
  cases call with
  | package path => exact .inr h
  | type c =>
    rw [register, classes_addClass] at h
    exact (mem_of_mem_putClass c d _ h).imp_left (congrArg Registration.type)

theorem Housed.register {r : Registry} (hclosed : r.Closed) (h : r.Housed) (call : Registration) :
    (r.register call).Housed := by
  intro c hc p hp
  rw [packages_register, mem_packages_addPackage hclosed]
  rcases classes_register r call c hc with rfl | hold
  · exact .inr hp
  · exact .inl (h c hold hp)

theorem build_housed (calls : List Registration) : (build calls).Housed := by
  induction calls using List.reverseRecOn with
  | nil => exact fun c hc => (List.not_mem_nil hc).elim
  | append_singleton calls call ih =>
    rw [build_concat]
    exact ih.register (build_closed calls) call

theorem mem_children (r : Registry) (path name : String) :
    name ∈ (r.children path).map Member.name ↔
      (∃ p ∈ r.packages, child? path p = some name) ∨
        ∃ c ∈ r.classes, (parent? c.name).getD "" = path ∧ simple c.name = name := by
  unfold children
  rw [((List.mergeSort_perm _ _).map _).mem_iff]
  change name ∈ MemberSet.names _ ↔ _
  rw [MemberSet.mem_names_ofList]
  simp [and_assoc]

theorem isPackage_iff (r : Registry) (path : String) :
    r.isPackage path = true ↔ path ∈ r.packages := by
  simp [isPackage]

theorem hasClass_iff (r : Registry) (name : String) :
    r.hasClass name = true ↔ ∃ c ∈ r.classes, c.name = name := by
  simp [hasClass, class?]

theorem Housed.isPackage {r : Registry} (h : r.Housed) {p q : QualifiedName}
    (hq : r.hasClass q = true) (hp : p ≠ "") (hfront : p.toList ++ ['.'] <+: q.toList) :
    r.isPackage p = true := by
  obtain ⟨c, hc, rfl⟩ := (hasClass_iff r q).1 hq
  obtain ⟨parent, hparent, hmem⟩ := exists_parent hp hfront
  rw [isPackage_iff]
  refine h c hc ?_
  rwa [Registration.home, hparent]

/-- A package below `path` is known exactly when its component directly below `path` is. -/
theorem Closed.child?_iff {r : Registry} (h : r.Closed) (path : String) {name : String}
    (hname : name ≠ "") (hdot : '.' ∉ name.toList) :
    (∃ p ∈ r.packages, child? path p = some name) ↔ r.isPackage (join path name) = true := by
  rw [isPackage_iff]
  constructor
  · rintro ⟨p, hp, hchild⟩
    exact h p hp ((child?_eq_some_iff path p name).1 hchild).2.2
  · intro hp
    exact ⟨_, hp, (child?_eq_some_iff path _ name).2
      ⟨hname, hdot, self_mem_lineage (join_ne_empty path hname)⟩⟩

/-- What is listed in a package is what is known under a name in it. -/
theorem Closed.mem_children_iff {r : Registry} (h : r.Closed) {path name : String}
    (hpath : path ≠ "") (hname : name ≠ "") (hdot : '.' ∉ name.toList) :
    name ∈ (r.children path).map Member.name ↔
      r.hasClass (join path name) = true ∨ r.isPackage (join path name) = true := by
  rw [mem_children, h.child?_iff path hname hdot, hasClass_iff, or_comm]
  simp only [getD_parent?_iff hpath, parent?_simple_iff hpath hdot]

end Registry
end ScriptConsole
