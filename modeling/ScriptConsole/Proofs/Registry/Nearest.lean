import ScriptConsole.Proofs.Registry.Supertypes
import ScriptConsole.Registry.Members

namespace ScriptConsole

/-- The class has a field of its own under the name. -/
def ClassDecl.DeclaresField (c : ClassDecl) (name : String) : Prop :=
  ∃ f ∈ c.fields, f.name = name

/-- The class has a method or a field of its own under the name. -/
def ClassDecl.Declares (c : ClassDecl) (name : String) : Prop :=
  (∃ m ∈ c.methods, m.name = name) ∨ c.DeclaresField name

theorem declares_iff (c : ClassDecl) (name : String) :
    c.Declares name ↔ ∃ m ∈ c.ownMembers, m.name = name := by
  simp [ClassDecl.Declares, ClassDecl.DeclaresField, ClassDecl.ownMembers, or_and_right, exists_or]

theorem owner_ownMembers (c : ClassDecl) (m : Member) (h : m ∈ c.ownMembers) : m.owner = c.name := by
  rw [ClassDecl.ownMembers, List.mem_append] at h
  rcases h with h | h
  · obtain ⟨_, _, rfl⟩ := List.mem_map.1 h
    rfl
  · obtain ⟨_, _, rfl⟩ := List.mem_map.1 h
    rfl

theorem exists_mem_flatMap_iff {α : Type} (classes : List ClassDecl) (own : ClassDecl → List α)
    (p : α → Prop) : (∃ x ∈ classes.flatMap own, p x) ↔ ∃ c ∈ classes, ∃ x ∈ own c, p x := by
  simp only [List.mem_flatMap]
  constructor
  · rintro ⟨x, ⟨c, hc, hx⟩, hp⟩
    exact ⟨c, hc, x, hx, hp⟩
  · rintro ⟨c, hc, x, hx, hp⟩
    exact ⟨x, ⟨c, hc, hx⟩, hp⟩

/-- Among the classes that direct supertypes lead to and of which `p` holds, none is nearer. -/
structure Registry.Nearest (r : Registry) (type : String) (p : ClassDecl → Prop) (c : ClassDecl) :
    Prop where
  reached : ∃ n, r.Reaches type c n
  holds : p c
  least : ∀ d n, r.Reaches type d n → p d → r.distance type c ≤ r.distance type d

section Lookup
variable {r : Registry} {type : String} {classes : List ClassDecl}

/-- What is found first, class by class, is found in a class nearest to `type`. -/
theorem nearest_of_find? {α : Type} (h : r.BreadthFirst type classes) (own : ClassDecl → List α)
    (p : α → Bool) (x : α) (hx : (classes.flatMap own).find? p = some x) :
    p x = true ∧ ∃ c, x ∈ own c ∧ r.Nearest type (fun d => ∃ y ∈ own d, p y = true) c := by
  rw [List.find?_flatMap] at hx
  obtain ⟨before, c, after, rfl, hc, hbefore⟩ := List.findSome?_eq_some_iff.1 hx
  have hpx : p x = true := List.find?_some hc
  have hmem : x ∈ own c := List.mem_of_find?_eq_some hc
  refine ⟨hpx, c, hmem, (h.mem_iff c).1 (by simp), ⟨x, hmem, hpx⟩, ?_⟩
  rintro d n hd ⟨y, hy, hpy⟩
  have hsorted := (List.pairwise_append.1 h.sorted).2.1
  rcases List.mem_append.1 ((h.mem_iff d).2 ⟨n, hd⟩) with hd | hd
  · exact absurd hpy (List.find?_eq_none.1 (hbefore d hd) y hy)
  · rcases List.mem_cons.1 hd with rfl | hd
    · exact Nat.le_refl _
    · exact (List.pairwise_cons.1 hsorted).1 d hd

theorem isSome_find?_iff {α : Type} (h : r.BreadthFirst type classes) (own : ClassDecl → List α)
    (p : α → Bool) : ((classes.flatMap own).find? p).isSome = true ↔
      ∃ d, (∃ n, r.Reaches type d n) ∧ ∃ y ∈ own d, p y = true := by
  rw [List.find?_isSome, exists_mem_flatMap_iff]
  simp only [h.mem_iff]

end Lookup

theorem overloads_eq (r : Registry) (type name : String) :
    r.overloads type name =
      (r.hierarchy type).flatMap fun c => c.methods.filter (·.name == name) :=
  List.filter_flatMap

theorem membersOf_eq (r : Registry) (type : String) (c : ClassDecl) (h : r.class? type = some c) :
    r.membersOf type = some (.ofList ((r.hierarchy type).flatMap ClassDecl.ownMembers)) := by
  have hne : r.hierarchy type ≠ [] := by
    rw [ne_eq, Registry.hierarchy_eq_nil_iff, h]
    exact Option.some_ne_none c
  unfold Registry.membersOf
  split
  · next hnil => exact (hne hnil).elim
  · rfl

/-- The supertypes of a registered class come breadth first.  Along them the overloads of a method
are collected, and a field and a member are found in a class that declares them at the least
distance. -/
theorem nearest_declaration (r : Registry) (type : String) (c : ClassDecl)
    (h : r.class? type = some c) :
    r.BreadthFirst type (r.hierarchy type) ∧
      (∀ name, r.overloads type name =
        (r.hierarchy type).flatMap fun d => d.methods.filter (·.name == name)) ∧
      (∀ name, ((r.field? type name).isSome = true ↔
          ∃ d, (∃ n, r.Reaches type d n) ∧ d.DeclaresField name) ∧
        ∀ f, r.field? type name = some f → f.name = name ∧
          ∃ d, f ∈ d.fields ∧ r.Nearest type (·.DeclaresField name) d) ∧
      ∃ members, r.membersOf type = some members ∧
        ∀ name, (name ∈ members.names ↔ ∃ d, (∃ n, r.Reaches type d n) ∧ d.Declares name) ∧
          ∀ m, members.get? name = some m →
            ∃ d, m.owner = d.name ∧ r.Nearest type (·.Declares name) d := by
  have hbfs := hierarchy_breadthFirst h
  refine ⟨hbfs, overloads_eq r type, ?_, _, membersOf_eq r type c h, ?_⟩
  · intro name
    have hfield : ∀ d : ClassDecl, d.DeclaresField name ↔
        ∃ f ∈ d.fields, (f.name == name) = true := by simp [ClassDecl.DeclaresField]
    simp only [hfield]
    refine ⟨isSome_find?_iff hbfs ClassDecl.fields _, ?_⟩
    intro f hf
    obtain ⟨hname, d, hmem, hnearest⟩ := nearest_of_find? hbfs ClassDecl.fields _ f hf
    exact ⟨by simpa using hname, d, hmem, hnearest⟩
  · intro name
    have hdeclares : ∀ d : ClassDecl, d.Declares name ↔
        ∃ m ∈ d.ownMembers, (m.name == name) = true := by simp [declares_iff]
    simp only [hdeclares]
    constructor
    · rw [← isSome_find?_iff hbfs ClassDecl.ownMembers, List.find?_isSome,
        MemberSet.mem_names_ofList]
      simp
    · intro m hm
      rw [MemberSet.get?_ofList] at hm
      obtain ⟨_, d, hmem, hnearest⟩ := nearest_of_find? hbfs ClassDecl.ownMembers _ m hm
      exact ⟨d, owner_ownMembers d m hmem, hnearest⟩

/-- `A` and `B` extend each other, and both lead to `J`: `B` itself, `A` by way of `I`.  Nothing is
registered under `K`. -/
def loopRegistry : Registry :=
  (((Registry.empty.addClass
      { name := "A", superclass := some "B", interfaces := ["I"] }).addClass
      { name := "B", superclass := some "A", interfaces := ["J", "K"] }).addClass
      { name := "I", kind := .interface, interfaces := ["J"],
        methods := [{ name := "size", returnType := "int" }] }).addClass
      { name := "J", kind := .interface, fields := [{ name := "size", type := "long" }] }

/-- The method of `I` hides the field of `J`, which is farther from `A`. -/
theorem nearest_declaration_loop :
    loopRegistry.BreadthFirst "A" (loopRegistry.hierarchy "A") ∧
      (loopRegistry.hierarchy "A").map ClassDecl.name = ["A", "B", "I", "J"] ∧
      ∃ d, d.name = "I" ∧ loopRegistry.Nearest "A" (·.Declares "size") d := by
  obtain ⟨hbfs, _, _, members, hmembers, hnames⟩ := nearest_declaration loopRegistry "A" _ rfl
  have hwalk : (loopRegistry.hierarchy "A").map ClassDecl.name = ["A", "B", "I", "J"] := by
    decide +kernel
  have hsize : (loopRegistry.membersOf "A").bind (·.get? "size") =
      some ⟨"size", .method, "I"⟩ := by decide +kernel
  rw [hmembers] at hsize
  obtain ⟨d, hd, hnearest⟩ := (hnames "size").2 _ hsize
  exact ⟨hbfs, hwalk, d, hd.symm, hnearest⟩

end ScriptConsole
