import ScriptConsole.Proofs.Member.Listing
import ScriptConsole.Proofs.Registry.History
import ScriptConsole.Proofs.Registry.Supertypes

namespace ScriptConsole

/-- Every name denotes the same class in both lists. -/
def SameNames (cs ds : List ClassDecl) : Prop :=
  ∀ name, cs.find? (·.name == name) = ds.find? (·.name == name)

section Walk
variable {cs ds : List ClassDecl}

theorem SameNames.filter (h : SameNames cs ds) (name : String) :
    SameNames (cs.filter (·.name != name)) (ds.filter (·.name != name)) := by
  intro other
  rw [find?_filter_ne, find?_filter_ne, h other]

theorem discover_congr (h : SameNames cs ds) (names : List String) :
    (discover cs names).found = (discover ds names).found ∧
      SameNames (discover cs names).unseen (discover ds names).unseen := by
  induction names generalizing cs ds with
  | nil => exact ⟨rfl, h⟩
  | cons name names ih =>
    rw [discover, discover, h name]
    cases ds.find? (·.name == name) with
    | none => exact ih h
    | some c =>
      obtain ⟨hfound, hunseen⟩ := ih (h.filter name)
      exact ⟨congrArg (c :: ·) hfound, hunseen⟩

theorem breadthFirst_congr (queue : List ClassDecl) (h : SameNames cs ds) :
    breadthFirst queue cs = breadthFirst queue ds := by
  fun_induction breadthFirst queue cs generalizing ds with
  | case1 cs => rw [breadthFirst]
  | case2 cs c queue d =>
    rename_i ih
    obtain ⟨hfound, hunseen⟩ := discover_congr h c.supertypes
    rw [breadthFirst, ih hunseen, hfound]

theorem sameNames_of_perm (h : cs.Perm ds) (hdistinct : (cs.map ClassDecl.name).Nodup) :
    SameNames cs ds := by
  intro name
  have hdistinct' : (ds.map ClassDecl.name).Nodup := (h.map _).nodup_iff.1 hdistinct
  ext c
  rw [find?_eq_some_iff_of_nodup ClassDecl.name cs hdistinct,
    find?_eq_some_iff_of_nodup ClassDecl.name ds hdistinct', h.mem_iff]

end Walk

namespace Registry

open QualifiedName

variable {r s : Registry}

theorem hierarchy_congr (h : ∀ name, r.class? name = s.class? name) (type : String) :
    r.hierarchy type = s.hierarchy type := by
  have hnames : SameNames r.classes s.classes := h
  rw [hierarchy, hierarchy, h type]
  cases s.class? type with
  | none => rfl
  | some c => exact breadthFirst_congr [c] (hnames.filter type)

theorem members_nodup (set : MemberSet) : set.members.Nodup := .of_map Member.name set.nodup

/-- Sorted by name, a set is determined by what is found under the names. -/
theorem mergeSort_congr {ms ns : List Member}
    (h : ∀ name, ms.find? (·.name == name) = ns.find? (·.name == name)) :
    ((MemberSet.ofList ms).members.mergeSort fun a b => a.name ≤ b.name) =
      (MemberSet.ofList ns).members.mergeSort fun a b => a.name ≤ b.name := by
  have hmem : ∀ m, m ∈ (MemberSet.ofList ms).members ↔ m ∈ (MemberSet.ofList ns).members := by
    intro m
    rw [mem_ofList_iff, mem_ofList_iff, h]
  have hperm : (MemberSet.ofList ms).members.Perm (MemberSet.ofList ns).members :=
    (List.perm_ext_iff_of_nodup (members_nodup _) (members_nodup _)).2 hmem
  have hsorted : ((MemberSet.ofList ms).members.mergeSort fun a b => a.name ≤ b.name).Perm
      ((MemberSet.ofList ns).members.mergeSort fun a b => a.name ≤ b.name) :=
    (List.mergeSort_perm _ _).trans (hperm.trans (List.mergeSort_perm _ _).symm)
  -- Distinct members may compare equal in a list, but not in a set.
  refine hsorted.eq_of_pairwise ?_ (pairwise_mergeSort_key _ _) (pairwise_mergeSort_key _ _)
  intro a b ha hb hab hba
  have hname : a.name = b.name := String.le_antisymm hab hba
  exact List.inj_on_of_nodup_map (MemberSet.ofList ns).nodup
    ((hmem a).1 (List.mem_mergeSort.1 ha)) (List.mem_mergeSort.1 hb) hname

theorem mem_classesIn (r : Registry) (path name : String) :
    name ∈ (r.classes.filter fun c => (parent? c.name).getD "" == path).map (simple ·.name) ↔
      ∃ q, r.hasClass q = true ∧ (parent? q).getD "" = path ∧ simple q = name := by
  simp [hasClass_iff, and_assoc]

theorem children_congr (hclasses : ∀ name, r.class? name = s.class? name)
    (hpackages : ∀ p, r.isPackage p = s.isPackage p) (path : String) :
    r.children path = s.children path := by
  have hpackage : ∀ name, name ∈ r.packages.filterMap (child? path) ↔
      name ∈ s.packages.filterMap (child? path) := by
    intro name
    simp only [List.mem_filterMap, ← isPackage_iff, hpackages]
  have hclass : ∀ name,
      name ∈ (r.classes.filter fun c => (parent? c.name).getD "" == path).map (simple ·.name) ↔
        name ∈ (s.classes.filter fun c => (parent? c.name).getD "" == path).map (simple ·.name) := by
    intro name
    simp only [mem_classesIn, hasClass, hclasses]
  have hnamed : (fun c : ClassDecl => (⟨simple c.name, .type, path⟩ : Member)) =
      (fun n => ⟨n, .type, path⟩) ∘ (simple ·.name) := rfl
  refine mergeSort_congr ?_
  intro name
  rw [List.find?_append, List.find?_append, hnamed, ← List.map_map, ← List.map_map, find?_named,
    find?_named, find?_named, find?_named]
  simp only [hpackage, hclass]

/-- The same is answered, whatever is asked. -/
structure Agrees (r s : Registry) : Prop where
  membersOf : ∀ type, r.membersOf type = s.membersOf type
  signature : ∀ type name, r.signature type name = s.signature type name
  overloads : ∀ type name, r.overloads type name = s.overloads type name
  field? : ∀ type name, r.field? type name = s.field? type name
  class? : ∀ name, r.class? name = s.class? name
  hasClass : ∀ name, r.hasClass name = s.hasClass name
  isPackage : ∀ path, r.isPackage path = s.isPackage path
  children : ∀ path, r.children path = s.children path

/-- Registries agree when names denote the same classes in both and the same packages are known. -/
theorem agrees_of_lookups (hclasses : ∀ name, r.class? name = s.class? name)
    (hpackages : ∀ p, r.isPackage p = s.isPackage p) : r.Agrees s := by
  have hoverloads : ∀ type name, r.overloads type name = s.overloads type name := by
    intro type name
    rw [overloads, overloads, hierarchy_congr hclasses]
  have hfield : ∀ type name, r.field? type name = s.field? type name := by
    intro type name
    rw [field?, field?, hierarchy_congr hclasses]
  exact {
    membersOf := fun type => by rw [membersOf, membersOf, hierarchy_congr hclasses]
    signature := fun type name => by rw [signature, signature, hoverloads, hfield]
    overloads := hoverloads
    field? := hfield
    class? := hclasses
    hasClass := fun name => by rw [hasClass, hasClass, hclasses]
    isPackage := hpackages
    children := children_congr hclasses hpackages }

/-- Where no class is registered twice, the order of the calls does not matter. -/
theorem build_perm (calls others : List Registration) (h : calls.Perm others)
    (hdistinct : ((declared calls).map ClassDecl.name).Nodup) :
    (build calls).Agrees (build others) := by
  have hdeclared : (declared calls).reverse.Perm (declared others).reverse :=
    (List.reverse_perm _).trans ((h.filterMap _).trans (List.reverse_perm _).symm)
  have hreverse : ((declared calls).reverse.map ClassDecl.name).Nodup := by
    rwa [List.map_reverse, List.nodup_reverse]
  refine agrees_of_lookups ?_ ?_
  · intro name
    rw [class?_build, class?_build, sameNames_of_perm hdeclared hreverse name]
  · intro p
    rw [Bool.eq_iff_iff, isPackage_iff, isPackage_iff, mem_packages_build, mem_packages_build]
    simp only [h.mem_iff]

/-- A class in front of the class it extends, and a package in front of the class it holds. -/
def subtypeFirst : List Registration :=
  [.type { name := "p.Sub", superclass := some "p.q.Base", fields := [⟨"item", "p.Sub", false⟩] },
    .package "p.q.r",
    .type { name := "p.q.Base", methods := [{ name := "item", returnType := "p.Sub" }] }]

theorem build_perm_reverse :
    subtypeFirst.Perm subtypeFirst.reverse ∧
      ((declared subtypeFirst).map ClassDecl.name).Nodup ∧
      (build subtypeFirst).Agrees (build subtypeFirst.reverse) :=
  have hperm := (List.reverse_perm subtypeFirst).symm
  have hdistinct : ((declared subtypeFirst).map ClassDecl.name).Nodup := by decide
  ⟨hperm, hdistinct, build_perm _ _ hperm hdistinct⟩

end Registry
end ScriptConsole
