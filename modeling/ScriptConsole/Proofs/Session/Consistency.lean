import ScriptConsole.Proofs.Registry.History
import ScriptConsole.Proofs.Resolution.Shown
import ScriptConsole.Proofs.Scope.History
import ScriptConsole.Registry.Standard

namespace ScriptConsole

open QualifiedName

/-- The packages listed in `path` are the components directly below it of known packages. -/
theorem exists_package_child_iff (r : Registry) (path name : String) :
    (∃ m ∈ r.children path, m.kind = .package ∧ m.name = name) ↔
      ∃ p ∈ r.packages, child? path p = some name := by
  constructor
  · rintro ⟨m, hm, hkind, rfl⟩
    rcases of_mem_children r path m hm with ⟨_, hpackage⟩ | ⟨htype, _⟩
    · exact hpackage
    · cases htype.symm.trans hkind
  · rintro ⟨p, hp, hchild⟩
    have hname : name ∈ r.packages.filterMap (child? path) :=
      List.mem_filterMap.2 ⟨p, hp, hchild⟩
    refine ⟨⟨name, .package, path⟩, List.mem_mergeSort.2 ((mem_ofList_iff _ _).2 ?_), rfl, rfl⟩
    -- packages come in front of classes
    rw [List.find?_append, find?_named, if_pos hname]
    rfl

/-- The packages listed at top level are those whose names have no dot. -/
theorem Registry.exists_root_iff (calls : List Registration) (root : String) :
    (∃ p ∈ (build calls).packages, child? "" p = some root) ↔
      (build calls).isPackage root = true ∧ '.' ∉ root.toList := by
  constructor
  · rintro ⟨p, hp, hchild⟩
    obtain ⟨hne, hdot, _⟩ := (child?_eq_some_iff "" p root).1 hchild
    exact ⟨((build_closed calls).child?_iff "" hne hdot).1 ⟨p, hp, hchild⟩, hdot⟩
  · rintro ⟨hknown, hdot⟩
    have hne : root ≠ "" := by
      obtain ⟨call, _, hmem⟩ := (mem_packages_build calls root).1 ((isPackage_iff _ root).1 hknown)
      exact ((mem_lineage_iff call.home root).1 hmem).1
    exact ((build_closed calls).child?_iff "" hne hdot).2 hknown

theorem roots_new (r : Registry) (config : CompletionConfig) :
    (Session.new r config).scope.roots =
      (((r.children "").filter (·.kind == .package)).map Member.name).eraseDups := by
  rw [Session.new, Session.foldl_addRoot]
  generalize ((r.children "").filter (·.kind == .package)).map Member.name = names
  change names.foldl Scope.appendNew [] = names.eraseDups
  induction names using List.reverseRecOn with
  | nil => rfl
  | append_singleton names name ih => simp [ih, eraseDups_concat]

namespace Scope

/-- Bound are identifiers; imported are registered classes, under their simple names, and known
packages; the console statements are those of a new scope; and the roots are the first components
of the known packages.  No table has a name twice. -/
structure Consistent (r : Registry) (s : Scope) : Prop where
  bound : ∀ b ∈ s.bindings, isIdentifier b.1 = true
  imported : ∀ c ∈ s.importedClasses, r.hasClass c.2 = true ∧ c.1 = simple c.2
  packages : ∀ path ∈ s.importedPackages, r.isPackage path = true
  keywords : s.keywords = ["importClass", "importPackage"]
  roots : ∀ root, root ∈ s.roots ↔ ∃ p ∈ r.packages, child? "" p = some root
  distinctBindings : s.bindings.names.Nodup
  distinctClasses : s.importedClasses.names.Nodup
  distinctPackages : s.importedPackages.Nodup
  distinctRoots : s.roots.Nodup

variable {r : Registry} {s t : Scope}

theorem consistent_new (r : Registry) (config : CompletionConfig) :
    (Session.new r config).scope.Consistent r := by
  obtain ⟨roots, hscope⟩ := Session.new_scope r config
  constructor
  case roots =>
    intro root
    rw [roots_new, List.mem_eraseDups, ← exists_package_child_iff]
    simp [and_assoc]
  case distinctRoots =>
    rw [roots_new]
    exact nodup_eraseDups _
  case keywords =>
    rw [hscope]
    rfl
  all_goals simp [hscope, Scope.empty, Entries.names]

theorem Consistent.effect (h : s.Consistent r) (heffect : s.Effect r t) : t.Consistent r := by
  cases heffect with
  | none => exact h
  | bind name v hname =>
    have hdistinct := Entries.nodup_names_set h.distinctBindings name v
    refine { h with bound := ?_, distinctBindings := hdistinct }
    intro b hb
    rcases Entries.mem_of_mem_set hb with rfl | hb
    · exact hname
    · exact h.bound b hb
  | importClass q hknown =>
    have hdistinct := Entries.nodup_names_set h.distinctClasses (simple q) q
    refine { h with imported := ?_, distinctClasses := hdistinct }
    intro c hc
    rcases Entries.mem_of_mem_set hc with rfl | hc
    · exact ⟨hknown, rfl⟩
    · exact h.imported c hc
  | importPackage path hknown =>
    refine { h with packages := ?_, distinctPackages := nodup_appendNew h.distinctPackages path }
    intro p hp
    rcases mem_appendNew.1 hp with hp | rfl
    · exact h.packages p hp
    · exact hknown

variable (s) (name : String)

theorem binding?_eq_none_iff : s.binding? name = none ↔ name ∉ s.bindings.names :=
  Entries.get?_eq_none_iff s.bindings name

theorem importedClass?_eq_none_iff :
    s.importedClass? name = none ↔ name ∉ s.importedClasses.names :=
  Entries.get?_eq_none_iff s.importedClasses name

theorem mem_names_topLevel :
    name ∈ s.topLevel.names ↔
      name ∈ s.bindings.names ∨ name ∈ s.importedClasses.names ∨ name ∈ s.keywords ∨
        name ∈ s.roots := by
  rw [topLevel, MemberSet.mem_names_ofList]
  simp [Entries.names]

/-- A console statement is listed unless something bound or imported hides it. -/
theorem keyword_mem_topLevel :
    ⟨name, .keyword, ""⟩ ∈ s.topLevel.members ↔
      name ∈ s.keywords ∧ name ∉ s.bindings.names ∧ name ∉ s.importedClasses.names := by
  have hfound : ⟨name, .keyword, ""⟩ ∈ s.topLevel.members ↔
      s.topLevel.get? name = some ⟨name, .keyword, ""⟩ :=
    ⟨get?_of_mem _ _, List.mem_of_find?_eq_some⟩
  rw [hfound, get?_topLevel, ← binding?_eq_none_iff, ← importedClass?_eq_none_iff]
  cases s.binding? name with
  | some v => simp
  | none =>
    cases s.importedClass? name with
    | some q => simp
    | none => by_cases hkeyword : name ∈ s.keywords <;> simp [hkeyword]

end Scope

namespace Session

variable {r : Registry} {s : Session}

theorem Reachable.consistent (h : Reachable r s) : s.scope.Consistent r := by
  induction h with
  | new config => exact Scope.consistent_new r config
  | perform s command hs ih =>
    have hstep := (s.perform_steps command).scope
    rw [hs.registry_eq] at hstep
    exact ih.effect hstep

theorem Reachable.isIdentifier_of_bound (h : Reachable r s) (name : String) (v : Value)
    (hv : s.scope.binding? name = some v) : isIdentifier name = true :=
  h.consistent.bound _ (Entries.mem_of_get? hv)

/-- The scope of a session in use is consistent, whatever succeeded or failed before.  The roots are
the packages whose names have no dot; the console statements stay; and at top level every name is
listed once, and those are the names of bindings, imported classes, console statements and roots. -/
theorem reachable_consistent (calls : List Registration) (s : Session)
    (hs : s.Reachable (Registry.build calls)) :
    s.scope.Consistent (Registry.build calls) ∧
    (∀ root, root ∈ s.scope.roots ↔
      (Registry.build calls).isPackage root = true ∧ '.' ∉ root.toList) ∧
    (∀ name, ⟨name, .keyword, ""⟩ ∈ s.scope.topLevel.members ↔
      name ∈ ["importClass", "importPackage"] ∧ name ∉ s.scope.bindings.names ∧
        name ∉ s.scope.importedClasses.names) ∧
    s.scope.topLevel.names.Nodup ∧
    ∀ name, name ∈ s.scope.topLevel.names ↔
      name ∈ s.scope.bindings.names ∨ name ∈ s.scope.importedClasses.names ∨
        name ∈ ["importClass", "importPackage"] ∨ name ∈ s.scope.roots := by
  refine ⟨hs.consistent, ?_, ?_, s.scope.topLevel.nodup, ?_⟩
  · intro root
    rw [hs.consistent.roots, Registry.exists_root_iff]
  · rw [← hs.consistent.keywords]
    exact s.scope.keyword_mem_topLevel
  · rw [← hs.consistent.keywords]
    exact s.scope.mem_names_topLevel

def stringCalls : List Registration := [.type Standard.object, .type Standard.string]

/-- A binding may hide a console statement. -/
theorem reachable_consistent_string :
    let s := (((new (Registry.build stringCalls) {}).perform
        (.execute "importClass('java.lang.String')")).perform
        (.execute "importClass('java.lang.Missing')")).perform (.execute "importClass = 'a'")
    "java" ∈ s.scope.roots ∧ ⟨"importClass", .keyword, ""⟩ ∉ s.scope.topLevel.members ∧
      ⟨"importPackage", .keyword, ""⟩ ∈ s.scope.topLevel.members ∧
      "String" ∈ s.scope.topLevel.names := by
  intro s
  have hs : s.Reachable (Registry.build stringCalls) :=
    .perform _ _ (.perform _ _ (.perform _ _ (.new {})))
  have hbindings : s.scope.bindings.names = ["importClass"] := by with_unfolding_all rfl
  have hclasses : s.scope.importedClasses.names = ["String"] := by with_unfolding_all rfl
  obtain ⟨_, hroots, hkeywords, _, hnames⟩ := reachable_consistent stringCalls s hs
  refine ⟨(hroots "java").2 ⟨by decide +kernel, by decide⟩, ?_, ?_, ?_⟩
  · rw [hkeywords, hbindings]
    simp
  · rw [hkeywords, hbindings, hclasses]
    simp
  · rw [hnames, hclasses]
    simp

end Session
end ScriptConsole
