import ScriptConsole.Proofs.Member.Listing
import ScriptConsole.Proofs.Registry.Packages
import ScriptConsole.Proofs.Resolution.Step
import ScriptConsole.Proofs.Session.Reachable

namespace ScriptConsole

open QualifiedName

/-- What is listed in a package is a package or a class found inside its path. -/
theorem of_mem_children (r : Registry) (path : String) (m : Member) (h : m ∈ r.children path) :
    (m.kind = .package ∧ ∃ p ∈ r.packages, child? path p = some m.name) ∨
      m.kind = .type ∧ ∃ c ∈ r.classes, (parent? c.name).getD "" = path ∧ simple c.name = m.name := by
  have hmem := List.mem_of_find?_eq_some ((mem_ofList_iff _ m).1 (List.mem_mergeSort.1 h))
  rcases List.mem_append.1 hmem with hpackage | hclass
  · obtain ⟨name, hname, rfl⟩ := List.mem_map.1 hpackage
    exact .inl ⟨rfl, List.mem_filterMap.1 hname⟩
  · obtain ⟨c, hc, rfl⟩ := List.mem_map.1 hclass
    obtain ⟨hc, hparent⟩ := List.mem_filter.1 hc
    exact .inr ⟨rfl, c, hc, by simpa using hparent, rfl⟩

theorem hasClass_of_shown (r : Registry) (path : QualifiedName) (hpath : path ≠ "") (m : Member)
    (h : m ∈ r.children path) (hkind : m.kind = .type) : r.hasClass (join path m.name) = true := by
  rcases of_mem_children r path m h with ⟨hpackage, _⟩ | ⟨_, c, hc, hparent, hname⟩
  · cases hkind.symm.trans hpackage
  · refine (Registry.hasClass_iff r _).2 ⟨c, hc, ?_⟩
    rw [← parent?_simple_iff hpath (hname ▸ dot_not_mem_simple c.name)]
    exact ⟨(getD_parent?_iff hpath c.name).1 hparent, hname⟩

theorem isPackage_of_shown (r : Registry) (hr : r.Closed) (path : QualifiedName) (m : Member)
    (h : m ∈ r.children path) (hkind : m.kind = .package) :
    r.isPackage (join path m.name) = true := by
  rcases of_mem_children r path m h with ⟨_, hchild⟩ | ⟨htype, _⟩
  · obtain ⟨p, hp, hchild⟩ := hchild
    obtain ⟨_, _, hmem⟩ := (child?_eq_some_iff path p m.name).1 hchild
    exact (Registry.isPackage_iff r _).2 (hr p hp hmem)
  · cases hkind.symm.trans htype

theorem get?_eq_find? {α : Type} (entries : Entries α) (name : String) :
    entries.get? name = (entries.find? (·.1 == name)).map Prod.snd := by
  induction entries with
  | nil => rfl
  | cons entry entries ih =>
    by_cases h : entry.1 = name <;> simp [Entries.get?, h, ih]

theorem find?_entries {α : Type} (entries : Entries α) (kind : MemberKind) (owner : α → String)
    (name : String) :
    (entries.map fun e => (⟨e.1, kind, owner e.2⟩ : Member)).find? (·.name == name) =
      (entries.get? name).map fun x => ⟨name, kind, owner x⟩ := by
  rw [get?_eq_find?, List.find?_map, Option.map_map]
  refine Option.map_congr ?_
  intro e he
  have hname : e.1 = name := by simpa using List.find?_some he
  simp [hname]

theorem get?_topLevel (s : Scope) (name : String) :
    s.topLevel.get? name =
      (((s.binding? name).map fun _ => ⟨name, .binding, ""⟩).or
        (((s.importedClass? name).map fun q => ⟨name, .type, q⟩).or
          ((if name ∈ s.keywords then some ⟨name, .keyword, ""⟩ else none).or
            (if name ∈ s.roots then some ⟨name, .package, ""⟩ else none)))) := by
  rw [Scope.topLevel, MemberSet.get?_ofList, List.find?_append, List.find?_append,
    List.find?_append, find?_named, find?_named, Option.or_assoc, Option.or_assoc]
  congr 1
  · exact find?_entries s.bindings .binding (fun _ => "") name
  · congr 1
    exact find?_entries s.importedClasses .type id name

/-- What stands behind a member listed at top level: nothing that is listed in front of it has its
name. -/
inductive Scope.Listed (s : Scope) : Member → Prop where
  | binding (name : String) (v : Value) (h : s.binding? name = some v) :
      Listed s ⟨name, .binding, ""⟩
  | type (name : String) (q : QualifiedName) (hfree : s.binding? name = none)
      (h : s.importedClass? name = some q) : Listed s ⟨name, .type, q⟩
  | keyword (name : String) (h : name ∈ s.keywords) : Listed s ⟨name, .keyword, ""⟩
  | package (name : String) (hfree : s.binding? name = none)
      (hclass : s.importedClass? name = none) (h : name ∈ s.roots) :
      Listed s ⟨name, .package, ""⟩

theorem listed_of_topLevel (s : Scope) (m : Member) (h : m ∈ s.topLevel.members) :
    s.Listed m := by
  have hlisted := get?_topLevel s m.name
  rw [get?_of_mem _ m h] at hlisted
  generalize m.name = name at hlisted
  cases hbinding : s.binding? name with
  | some v =>
    obtain rfl : m = ⟨name, .binding, ""⟩ := by simpa [hbinding] using hlisted
    exact .binding name v hbinding
  | none =>
    cases hclass : s.importedClass? name with
    | some q =>
      obtain rfl : m = ⟨name, .type, q⟩ := by simpa [hbinding, hclass] using hlisted
      exact .type name q hbinding hclass
    | none =>
      rw [hbinding, hclass, Option.map_none, Option.map_none, Option.none_or,
        Option.none_or] at hlisted
      by_cases hkeyword : name ∈ s.keywords
      · obtain rfl : m = ⟨name, .keyword, ""⟩ := by simpa [hkeyword] using hlisted
        exact .keyword name hkeyword
      · by_cases hroot : name ∈ s.roots
        · obtain rfl : m = ⟨name, .package, ""⟩ := by simpa [hkeyword, hroot] using hlisted
          exact .package name hbinding hclass hroot
        · simp [hkeyword, hroot] at hlisted

/-- The kinds listed at top level are what the names refer to, but that a class of an imported
package hides a package. -/
theorem resolve_of_topLevel (s : Scope) (catalog : Catalog) (m : Member)
    (h : m ∈ s.topLevel.members) :
    (m.kind = .binding → ∃ v, s.resolve catalog m.name = some (.value v)) ∧
      (m.kind = .type → s.resolve catalog m.name = some (.type m.owner)) ∧
      (m.kind = .package →
        (∀ path ∈ s.importedPackages, catalog.hasClass (join path m.name) = false) →
        s.resolve catalog m.name = some (.package m.name)) := by
  cases listed_of_topLevel s m h with
  | binding name v hv => exact ⟨fun _ => ⟨v, by simp [Scope.resolve, hv]⟩, nofun, nofun⟩
  | type name q hfree hq => exact ⟨nofun, fun _ => by simp [Scope.resolve, hfree, hq], nofun⟩
  | keyword name _ => exact ⟨nofun, nofun, nofun⟩
  | package name hfree hclass hroot =>
    refine ⟨nofun, nofun, fun _ himports => ?_⟩
    have hpackages : s.packageClass? catalog name = none := by
      simpa [Scope.packageClass?] using himports
    simp [Scope.resolve, hfree, hclass, hpackages, hroot]

/-- A candidate resolves to what it is shown as.  In a package this is so for classes, and for
packages unless there is a class of the same full name; at top level for bindings and imported
classes, and for packages unless an imported package has a class of the same name. -/
theorem resolves_as_shown (calls : List Registration) (s : Session)
    (hs : s.Reachable (Registry.build calls)) :
    (∀ path : QualifiedName, path ≠ "" → ∀ m ∈ (Registry.build calls).children path,
      (m.kind = .type →
        s.environment.followField (.package path) m.name = .static (join path m.name)) ∧
      (m.kind = .package → (Registry.build calls).hasClass (join path m.name) = false →
        s.environment.followField (.package path) m.name = .package (join path m.name))) ∧
    ∀ m ∈ s.scope.topLevel.members,
      (m.kind = .binding →
        ∃ v, s.scope.resolve (Registry.build calls).catalog m.name = some (.value v)) ∧
      (m.kind = .type →
        s.scope.resolve (Registry.build calls).catalog m.name = some (.type m.owner)) ∧
      (m.kind = .package →
        (∀ path ∈ s.scope.importedPackages,
          (Registry.build calls).hasClass (join path m.name) = false) →
        s.scope.resolve (Registry.build calls).catalog m.name = some (.package m.name)) := by
  refine ⟨?_, fun m hm => resolve_of_topLevel s.scope _ m hm⟩
  intro path hpath m hm
  rw [Session.environment_eq, hs.registry_eq, followField_package]
  constructor
  · intro htype
    rw [if_pos (hasClass_of_shown _ path hpath m hm htype)]
  · intro hpackage hfree
    have hknown := isPackage_of_shown _ (Registry.build_closed calls) path m hm hpackage
    rw [hfree, if_neg Bool.false_ne_true, if_pos hknown]

/-- A class with the full name of a package, and in this one a class with the name of the root. -/
def clashingCalls : List Registration := [.type { name := "a.b" }, .type { name := "a.b.a" }]

theorem resolves_as_shown_inner :
    ((Session.new (Registry.build clashingCalls) {}).perform
        (.importClass "a.b.a")).environment.followField (.package "a.b") "a" = .static "a.b.a" ∧
      (Session.new (Registry.build clashingCalls) {}).scope.resolve
        (Registry.build clashingCalls).catalog "a" = some (.package "a") := by
  have hnew := resolves_as_shown clashingCalls _ (.new {})
  have himported := resolves_as_shown clashingCalls _ (.perform _ (.importClass "a.b.a") (.new {}))
  exact ⟨(himported.1 "a.b" (by decide) ⟨"a", .type, "a.b"⟩ (by decide +kernel)).1 rfl,
    (hnew.2 ⟨"a", .package, ""⟩ (by decide +kernel)).2.2 rfl (by decide +kernel)⟩

/-- Shown as packages, two names refer to classes: a class has the full name of the one, and a class
of an imported package the other. -/
theorem shown_as_package :
    let s := (Session.new (Registry.build clashingCalls) {}).perform (.importPackage "a.b")
    s.Reachable (Registry.build clashingCalls) ∧
      (⟨"b", .package, "a"⟩ : Member) ∈ (Registry.build clashingCalls).children "a" ∧
      s.environment.followField (.package "a") "b" = .static "a.b" ∧
      (⟨"a", .package, ""⟩ : Member) ∈ s.scope.topLevel.members ∧
      s.scope.resolve (Registry.build clashingCalls).catalog "a" = some (.type "a.b.a") := by
  refine ⟨.perform _ _ (.new {}), by decide +kernel, by with_unfolding_all rfl,
    by decide +kernel, by with_unfolding_all rfl⟩

end ScriptConsole
