import ScriptConsole.Proofs.Registry.History
import ScriptConsole.Registry.Memo

namespace ScriptConsole

/-- What can be done to a registry that remembers: something is registered, or the members of a type
are asked for. -/
inductive Memo.Use where
  | register (call : Registration)
  | members (type : String)

namespace Memo

def Use.registration? : Use → Option Registration
  | register call => some call
  | members _ => none

/-- The calls among the uses that register something. -/
def registrations (uses : List Use) : List Registration := uses.filterMap Use.registration?

theorem registrations_concat (uses : List Use) (use : Use) :
    registrations (uses ++ [use]) = registrations uses ++ use.registration?.toList := by
  rw [registrations, List.filterMap_append]
  cases use <;> rfl

def perform (m : Memo) : Use → Memo
  | .register (.type c) => m.addClass c
  | .register (.package path) => m.addPackage path
  | .members type => (m.membersOf type).2

/-- What the uses make of an empty registry that remembers nothing. -/
def build (uses : List Use) : Memo := uses.foldl perform (ofRegistry .empty)

theorem build_concat (uses : List Use) (use : Use) :
    build (uses ++ [use]) = (build uses).perform use := by
  simp [build]

/-- Every remembered set is the set of the members that the type has now. -/
def Fresh (m : Memo) : Prop := ∀ e ∈ m.remembered, m.registry.membersOf e.1 = some e.2

/-- What asking for members does: the set is worked out, and remembered when the type is known. -/
theorem membersOf_cases {m : Memo} (h : m.Fresh) (type : String) :
    (m.membersOf type).1 = m.registry.membersOf type ∧
      ((m.membersOf type).2 = m ∨ ∃ members, m.registry.membersOf type = some members ∧
        (m.membersOf type).2 = ⟨m.registry, m.remembered.set type members⟩) := by
  unfold membersOf
  split
  · next members hmembers =>
    exact ⟨(h _ (Entries.mem_of_get? hmembers)).symm, .inl rfl⟩
  · split
    · next hnone => exact ⟨hnone.symm, .inl rfl⟩
    · next members hmembers => exact ⟨hmembers.symm, .inr ⟨members, hmembers, rfl⟩⟩

theorem membersOf_eq_none_iff (r : Registry) (type : String) :
    r.membersOf type = none ↔ ¬ r.hasClass type = true := by
  rw [Registry.hasClass, Option.not_isSome_iff_eq_none, ← r.hierarchy_eq_nil_iff]
  unfold Registry.membersOf
  split
  · next hnil => simp [hnil]
  · next hne => simpa using hne

theorem membersOf_addPackage (r : Registry) (path type : String) :
    (r.addPackage path).membersOf type = r.membersOf type := rfl

theorem Fresh.perform {m : Memo} (h : m.Fresh) (use : Use) : (m.perform use).Fresh := by
  cases use with
  | register call =>
    cases call with
    | type c => exact fun e he => (List.not_mem_nil he).elim
    | package path => exact fun e he => (membersOf_addPackage _ path e.1).trans (h e he)
  | members type =>
    rw [Memo.perform]
    rcases (membersOf_cases h type).2 with heq | ⟨members, hmembers, heq⟩
    · rwa [heq]
    · rw [heq]
      intro e he
      rcases Entries.mem_of_mem_set he with rfl | hold
      · exact hmembers
      · exact h e hold

theorem registry_perform {m : Memo} (h : m.Fresh) (use : Use) :
    (m.perform use).registry = use.registration?.toList.foldl Registry.register m.registry := by
  cases use with
  | register call => cases call <;> rfl
  | members type =>
    rw [perform]
    rcases (membersOf_cases h type).2 with heq | ⟨_, _, heq⟩ <;> rw [heq] <;> rfl

theorem build_fresh (uses : List Use) : (build uses).Fresh := by
  induction uses using List.reverseRecOn with
  | nil => exact fun e he => (List.not_mem_nil he).elim
  | append_singleton uses use ih =>
    rw [build_concat]
    exact ih.perform use

theorem registry_build (uses : List Use) :
    (build uses).registry = Registry.build (registrations uses) := by
  induction uses using List.reverseRecOn with
  | nil => rfl
  | append_singleton uses use ih =>
    rw [build_concat, registry_perform (build_fresh uses), ih, registrations_concat,
      Registry.build, Registry.build, List.foldl_append]

/-- What is remembered of a type is the set of the members that it has by the classes registered up
to then.  Being asked, the registry answers with this set, and with nothing exactly for the types
under which no class has been registered. -/
theorem membersOf_build (uses : List Use) :
    (∀ e ∈ (build uses).remembered,
      (Registry.build (registrations uses)).membersOf e.1 = some e.2) ∧
    ∀ type,
      ((build uses).membersOf type).1 = (Registry.build (registrations uses)).membersOf type ∧
      (((build uses).membersOf type).1 = none ↔
        ¬ ∃ c, .type c ∈ registrations uses ∧ c.name = type) := by
  have hfresh := build_fresh uses
  rw [← registry_build]
  refine ⟨hfresh, ?_⟩
  intro type
  have hanswer := (membersOf_cases hfresh type).1
  refine ⟨hanswer, ?_⟩
  rw [hanswer, registry_build, ← Registry.hasClass_build, membersOf_eq_none_iff]

/-- The members of a type are asked for, and the class that it extends is replaced. -/
def replacedUses : List Use :=
  [.register (.type { name := "Base", methods := [{ name := "old", returnType := "void" }] }),
    .register (.type { name := "Sub", superclass := some "Base" }),
    .members "Sub",
    .register (.type { name := "Base", methods := [{ name := "new", returnType := "void" }] }),
    .members "Sub"]

theorem membersOf_build_replaced :
    ∃ members, ("Sub", members) ∈ (build replacedUses).remembered ∧ members.names = ["new"] ∧
      (Registry.build (registrations replacedUses)).membersOf "Sub" = some members := by
  have hremembered : ((build replacedUses).remembered.get? "Sub").map MemberSet.names =
      some ["new"] := by decide +kernel
  obtain ⟨members, hget, hnames⟩ := Option.map_eq_some_iff.1 hremembered
  have hmem := Entries.mem_of_get? hget
  exact ⟨members, hmem, hnames, (membersOf_build replacedUses).1 _ hmem⟩

end Memo
end ScriptConsole
