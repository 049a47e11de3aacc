import Mathlib.Logic.Relation
import ScriptConsole.Proofs.Registry.Packages

namespace ScriptConsole

open QualifiedName Relation

/-- `p` is what `q` spells in front of its last dot, and not the root. -/
structure QualifiedName.StepsUp (q p : QualifiedName) : Prop where
  parent : parent? q = some p
  nonempty : p ≠ ""

theorem reflTransGen_root {p : QualifiedName} (h : ReflTransGen StepsUp "" p) : p = "" := by
  rcases ReflTransGen.cases_head h with rfl | ⟨_, hstep, _⟩
  · rfl
  · cases hstep.parent

/-- The ancestors of a name are what the ways up from it lead to. -/
theorem mem_lineage_iff_reflTransGen (q p : QualifiedName) :
    p ∈ lineage q ↔ p ≠ "" ∧ ReflTransGen StepsUp q p := by
  fun_induction lineage q with
  | case1 q hq =>
    obtain rfl : q = "" := by simpa using hq
    simpa using fun hp h => hp (reflTransGen_root h)
  | case2 q hq hparent =>
    have hne : q ≠ "" := by simpa using hq
    rw [List.mem_singleton]
    constructor
    · rintro rfl
      exact ⟨hne, .refl⟩
    · rintro ⟨_, h⟩
      rcases ReflTransGen.cases_head h with rfl | ⟨_, hstep, _⟩
      · rfl
      · cases hparent.symm.trans hstep.parent
  | case3 q hq parent hparent ih =>
    have hne : q ≠ "" := by simpa using hq
    rw [List.mem_cons, ih]
    constructor
    · rintro (rfl | ⟨hp, h⟩)
      · exact ⟨hne, .refl⟩
      · have hroot : parent ≠ "" := by
          rintro rfl
          exact hp (reflTransGen_root h)
        exact ⟨hp, .head ⟨hparent, hroot⟩ h⟩
    · rintro ⟨hp, h⟩
      rcases ReflTransGen.cases_head h with rfl | ⟨c, hstep, h⟩
      · exact .inl rfl
      · cases hparent.symm.trans hstep.parent
        exact .inr ⟨hp, h⟩

/-- The class that a call registers. -/
def Registration.class? : Registration → Option ClassDecl
  | type c => some c
  | package _ => none

namespace Registry

/-- The classes that the calls register, the replaced ones among them. -/
def declared (calls : List Registration) : List ClassDecl := calls.filterMap Registration.class?

theorem mem_declared (calls : List Registration) (c : ClassDecl) :
    c ∈ declared calls ↔ .type c ∈ calls := by
  rw [declared, List.mem_filterMap]
  constructor
  · rintro ⟨call, hcall, hc⟩
    cases call with
    | type d =>
      cases hc
      exact hcall
    | package path => cases hc
  · exact fun h => ⟨_, h, rfl⟩

theorem declared_concat (calls : List Registration) (call : Registration) :
    declared (calls ++ [call]) = declared calls ++ call.class?.toList := by
  rw [declared, List.filterMap_append]
  cases call <;> rfl

theorem class?_register (r : Registry) (call : Registration) (name : String) :
    (r.register call).class? name =
      (call.class?.toList.find? (·.name == name)).or (r.class? name) := by
  cases call with
  | package path => rfl
  | type c =>
    rw [register, class?_addClass]
    by_cases h : c.name = name <;> simp [Registration.class?, h]

theorem class?_build (calls : List Registration) (name : String) :
    (build calls).class? name = (declared calls).reverse.find? (·.name == name) := by
  induction calls using List.reverseRecOn with
  | nil => rfl
  | append_singleton calls call ih =>
    rw [build_concat, class?_register, ih, declared_concat, List.reverse_append,
      List.find?_append]
    cases call <;> rfl

theorem hasClass_build (calls : List Registration) (name : String) :
    (build calls).hasClass name = true ↔ ∃ c, .type c ∈ calls ∧ c.name = name := by
  rw [hasClass, class?_build, List.find?_isSome]
  simp [mem_declared]

theorem mem_packages_build (calls : List Registration) (p : String) :
    p ∈ (build calls).packages ↔ ∃ call ∈ calls, p ∈ lineage call.home := by
  induction calls using List.reverseRecOn with
  | nil => simp [build, empty]
  | append_singleton calls call ih =>
    rw [build_concat, packages_register, mem_packages_addPackage (build_closed calls), ih]
    simp [or_and_right, exists_or]

/-- A call registers `q` as a package, or a class directly inside `q`; another class may replace this
one later. -/
def Introduced (calls : List Registration) (q : QualifiedName) : Prop :=
  .package q ∈ calls ∨ ∃ c, .type c ∈ calls ∧ parent? c.name = some q

theorem exists_home_iff (calls : List Registration) (p : QualifiedName) :
    (∃ call ∈ calls, p ∈ lineage call.home) ↔ ∃ q, Introduced calls q ∧ p ∈ lineage q := by
  constructor
  · rintro ⟨call, hcall, hp⟩
    cases call with
    | package path => exact ⟨path, .inl hcall, hp⟩
    | type c =>
      rw [Registration.home] at hp
      cases hparent : parent? c.name with
      | none => simp [hparent, lineage] at hp
      | some q =>
        rw [hparent] at hp
        exact ⟨q, .inr ⟨c, hcall, hparent⟩, hp⟩
  · rintro ⟨q, hcall | ⟨c, hcall, hparent⟩, hp⟩
    · exact ⟨_, hcall, hp⟩
    · refine ⟨_, hcall, ?_⟩
      rwa [Registration.home, hparent]

/-- The known packages are those that ways up from registered names lead to.  After every call they
hold their parents, so that the search for unknown ancestors may end at a known package. -/
theorem isPackage_build_iff (calls : List Registration) :
    (∀ p, (build calls).isPackage p = true ↔
      p ≠ "" ∧ ∃ q, Introduced calls q ∧ ReflTransGen StepsUp q p) ∧
    (∀ p parent, (build calls).isPackage p = true → parent? p = some parent → parent ≠ "" →
      (build calls).isPackage parent = true) ∧
    ∀ path p, ((build calls).addPackage path).isPackage p = true ↔
      (build calls).isPackage p = true ∨ p ≠ "" ∧ ReflTransGen StepsUp path p := by
  simp only [isPackage_iff]
  refine ⟨?_, ?_, ?_⟩
  · intro p
    rw [mem_packages_build, exists_home_iff]
    simp only [mem_lineage_iff_reflTransGen, and_left_comm, exists_and_left]
  · intro p parent hp hparent hne
    refine build_closed calls p hp ?_
    exact (mem_lineage_iff_reflTransGen p parent).2 ⟨hne, .single ⟨hparent, hne⟩⟩
  · intro path p
    rw [mem_packages_addPackage (build_closed calls), mem_lineage_iff_reflTransGen]

/-- A package and a class with dots in unusual places. -/
def dottedCalls : List Registration := [.package "a..b", .type { name := ".x.Y" }]

theorem isPackage_build_dotted :
    (build dottedCalls).isPackage "a." = true ∧ (build dottedCalls).isPackage "a" = true ∧
      (build dottedCalls).isPackage ".x" = true ∧ (build dottedCalls).isPackage "" = false := by
  obtain ⟨hknown, hparents, _⟩ := isPackage_build_iff dottedCalls
  have hdot : (build dottedCalls).isPackage "a." = true :=
    (hknown "a.").2 ⟨by decide, "a..b", .inl (by simp [dottedCalls]),
      .single ⟨by decide, by decide⟩⟩
  have hclass : (build dottedCalls).isPackage ".x" = true :=
    (hknown ".x").2 ⟨by decide, ".x",
      .inr ⟨{ name := ".x.Y" }, by simp [dottedCalls], by decide⟩, .refl⟩
  have hroot : ¬ (build dottedCalls).isPackage "" = true := fun h => ((hknown "").1 h).1 rfl
  exact ⟨hdot, hparents "a." "a" hdot (by decide) (by decide), hclass, by simpa using hroot⟩

end Registry
end ScriptConsole
