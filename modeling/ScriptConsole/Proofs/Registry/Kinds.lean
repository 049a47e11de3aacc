import ScriptConsole.Proofs.Registry.Nearest
import ScriptConsole.Proofs.Registry.Packages

namespace ScriptConsole

/-- The class has a method of its own under the name. -/
def ClassDecl.DeclaresMethod (c : ClassDecl) (name : String) : Prop :=
  ∃ m ∈ c.methods, m.name = name

section Views
variable (r : Registry) (type name : String)

/-- The set of all members has the names that some class of the hierarchy declares. -/
theorem mem_membersOf :
    (∃ members, r.membersOf type = some members ∧ name ∈ members.names) ↔
      ∃ c ∈ r.hierarchy type, c.Declares name := by
  unfold Registry.membersOf
  split
  · next hnil => simp [hnil]
  · simp only [Option.some.injEq, exists_eq_left', MemberSet.mem_names_ofList, List.mem_map,
      exists_mem_flatMap_iff, declares_iff]

theorem overloads_ne_nil :
    r.overloads type name ≠ [] ↔ ∃ c ∈ r.hierarchy type, c.DeclaresMethod name := by
  rw [overloads_eq, ne_eq, List.flatMap_eq_nil_iff]
  simp [ClassDecl.DeclaresMethod]

theorem isSome_field? :
    (r.field? type name).isSome = true ↔ ∃ c ∈ r.hierarchy type, c.DeclaresField name := by
  rw [Registry.field?, List.find?_isSome, exists_mem_flatMap_iff]
  simp only [ClassDecl.DeclaresField, beq_iff_eq]

theorem isSome_signature :
    (r.signature type name).isSome = true ↔ ∃ c ∈ r.hierarchy type, c.Declares name := by
  have hdeclares : ∀ c : ClassDecl, c.Declares name ↔
      c.DeclaresMethod name ∨ c.DeclaresField name := fun c => Iff.rfl
  simp only [hdeclares, and_or_left, exists_or]
  rw [← overloads_ne_nil, ← isSome_field?]
  unfold Registry.signature
  split
  · next hnil => simp [hnil]
  · next hmethods => simpa using .inl hmethods

end Views

/-- The kind under which a class itself lists a name. -/
def ClassDecl.ownKind? (c : ClassDecl) (name : String) : Option MemberKind :=
  (c.ownMembers.find? (·.name == name)).map Member.kind

section Own
variable (c : ClassDecl) (name : String)

theorem ownKind?_eq :
    c.ownKind? name = ((c.methods.find? (·.name == name)).map fun _ => .method).or
      ((c.fields.find? (·.name == name)).map fun _ => .field) := by
  rw [ClassDecl.ownKind?, ClassDecl.ownMembers, List.find?_append, List.find?_map, List.find?_map,
    Option.map_or, Option.map_map, Option.map_map]
  rfl

theorem ownKind?_method : c.ownKind? name = some .method ↔ c.DeclaresMethod name := by
  have hmethod : c.DeclaresMethod name ↔ (c.methods.find? (·.name == name)).isSome = true := by
    simp [ClassDecl.DeclaresMethod]
  rw [ownKind?_eq, hmethod]
  cases c.methods.find? (·.name == name) <;> simp

theorem ownKind?_none : c.ownKind? name = none ↔ ¬ c.Declares name := by
  simp [ClassDecl.ownKind?, declares_iff]

theorem ownKind?_field :
    c.ownKind? name = some .field ↔ c.DeclaresField name ∧ ¬ c.DeclaresMethod name := by
  have hfield : c.DeclaresField name ↔ (c.fields.find? (·.name == name)).isSome = true := by
    simp [ClassDecl.DeclaresField]
  rw [← ownKind?_method, hfield, ownKind?_eq]
  cases c.methods.find? (·.name == name) <;> cases c.fields.find? (·.name == name) <;> simp

end Own

section Kinds
variable (r : Registry) (type name : String)

/-- The kind under which a name is listed among the members of a type. -/
def Registry.listedKind? : Option MemberKind :=
  ((r.membersOf type).bind (·.get? name)).map Member.kind

/-- The kind of the signature that a name has on a type. -/
def Registry.signatureKind? : Option MemberKind := (r.signature type name).map Signature.kind

/-- Of the classes that declare the name, the first has a field and no method of it, and one behind
it has a method. -/
def Registry.FieldInFront : Prop :=
  ∃ before c after, r.hierarchy type = before ++ c :: after ∧
    (c.DeclaresField name ∧ ¬ c.DeclaresMethod name) ∧ (∀ d ∈ before, ¬ d.Declares name) ∧
    ∃ d ∈ after, d.DeclaresMethod name

/-- A name is listed as what the first class with the name lists. -/
theorem listedKind?_iff (kind : MemberKind) :
    r.listedKind? type name = some kind ↔
      ∃ before c after, r.hierarchy type = before ++ c :: after ∧ c.ownKind? name = some kind ∧
        ∀ d ∈ before, ¬ d.Declares name := by
  have heq : r.listedKind? type name = (r.hierarchy type).findSome? (·.ownKind? name) := by
    unfold Registry.listedKind? Registry.membersOf
    split
    · next hnil => rw [hnil]; rfl
    · rw [Option.bind_some, MemberSet.get?_ofList, List.find?_flatMap, List.map_findSome?]
      rfl
  simp only [heq, List.findSome?_eq_some_iff, ownKind?_none]

theorem signatureKind?_method :
    r.signatureKind? type name = some .method ↔
      ∃ c ∈ r.hierarchy type, c.DeclaresMethod name := by
  have hmethods := overloads_ne_nil r type name
  unfold Registry.signatureKind? Registry.signature
  split
  · next hnil =>
    rw [hnil] at hmethods
    simp [← hmethods]
  · next hne => simpa [← hmethods] using hne

theorem signatureKind?_field :
    r.signatureKind? type name = some .field ↔
      (∃ c ∈ r.hierarchy type, c.DeclaresField name) ∧
        ¬ ∃ c ∈ r.hierarchy type, c.DeclaresMethod name := by
  rw [← isSome_field?, ← signatureKind?_method]
  unfold Registry.signatureKind? Registry.signature
  split
  · cases r.field? type name <;> simp
  · simp

theorem fieldInFront_iff :
    r.FieldInFront type name ↔
      r.listedKind? type name = some .field ∧ r.signatureKind? type name = some .method := by
  rw [listedKind?_iff, signatureKind?_method]
  simp only [ownKind?_field]
  constructor
  · rintro ⟨before, c, after, hcut, hc, hbefore, d, hd, hmethod⟩
    exact ⟨⟨before, c, after, hcut, hc, hbefore⟩, d, by simp [hcut, hd], hmethod⟩
  · rintro ⟨⟨before, c, after, hcut, hc, hbefore⟩, d, hd, hmethod⟩
    refine ⟨before, c, after, hcut, hc, hbefore, d, ?_, hmethod⟩
    rw [hcut, List.mem_append, List.mem_cons] at hd
    rcases hd with hd | rfl | hd
    · exact (hbefore d hd (.inl hmethod)).elim
    · exact (hc.2 hmethod).elim
    · exact hd

/-- A kind that is listed is looked up, unless a field in front hides it. -/
theorem signatureKind?_of_listed (kind : MemberKind) (h : r.listedKind? type name = some kind)
    (hfront : ¬ r.FieldInFront type name) : r.signatureKind? type name = some kind := by
  rw [fieldInFront_iff] at hfront
  obtain ⟨before, c, after, hcut, hkind, _⟩ := (listedKind?_iff r type name kind).1 h
  have hmem : c ∈ r.hierarchy type := by simp [hcut]
  by_cases hmethod : c.DeclaresMethod name
  · cases hkind.symm.trans ((ownKind?_method c name).2 hmethod)
    exact (signatureKind?_method r type name).2 ⟨c, hmem, hmethod⟩
  · have hdeclares : c.Declares name := by
      by_contra hno
      cases hkind.symm.trans ((ownKind?_none c name).2 hno)
    have hfield : c.DeclaresField name := hdeclares.resolve_left hmethod
    cases hkind.symm.trans ((ownKind?_field c name).2 ⟨hfield, hmethod⟩)
    refine (signatureKind?_field r type name).2 ⟨⟨c, hmem, hfield⟩, ?_⟩
    rw [← signatureKind?_method]
    exact fun hlooked => hfront ⟨h, hlooked⟩

theorem isSome_listedKind? :
    (r.listedKind? type name).isSome = true ↔ ∃ c ∈ r.hierarchy type, c.Declares name := by
  rw [← mem_membersOf, Registry.listedKind?, Option.isSome_map]
  cases r.membersOf type with
  | none => simp
  | some members => simp [MemberSet.get?, MemberSet.names]

theorem exists_method_of_listed (h : r.listedKind? type name = some .method) :
    ∃ c ∈ r.hierarchy type, c.DeclaresMethod name := by
  obtain ⟨before, c, after, hcut, hkind, _⟩ := (listedKind?_iff r type name .method).1 h
  exact ⟨c, by simp [hcut], (ownKind?_method c name).1 hkind⟩

theorem exists_field_of_listed (h : r.listedKind? type name = some .field) :
    ∃ c ∈ r.hierarchy type, c.DeclaresField name := by
  obtain ⟨before, c, after, hcut, hkind, _⟩ := (listedKind?_iff r type name .field).1 h
  exact ⟨c, by simp [hcut], ((ownKind?_field c name).1 hkind).1⟩

end Kinds

/-- The members listed for a type are those that can be looked up.  The kinds are the same, unless a
class in front declares only a field of the name and one behind it a method: then the name is listed
as a field and looked up as a method. -/
theorem listed_kind_eq_iff (r : Registry) (type name : String) :
    ((∃ members, r.membersOf type = some members ∧ name ∈ members.names) ↔
        (r.signature type name).isSome = true) ∧
      (r.listedKind? type name = r.signatureKind? type name ↔ ¬ r.FieldInFront type name) ∧
      (r.FieldInFront type name ↔
        r.listedKind? type name = some .field ∧ r.signatureKind? type name = some .method) := by
  have hfront := fieldInFront_iff r type name
  refine ⟨(mem_membersOf r type name).trans (isSome_signature r type name).symm, ?_, hfront⟩
  constructor
  · intro heq h
    obtain ⟨hlisted, hlooked⟩ := hfront.1 h
    cases hlisted.symm.trans (heq.trans hlooked)
  · intro hnot
    cases hkind : r.listedKind? type name with
    | some kind => exact (signatureKind?_of_listed r type name kind hkind hnot).symm
    | none =>
      have hnone : ¬ (r.signature type name).isSome = true := by
        rw [isSome_signature, ← isSome_listedKind?, hkind]
        exact Bool.false_ne_true
      rw [Registry.signatureKind?, Option.not_isSome_iff_eq_none.1 hnone]
      rfl

/-- A class with a field of the name that its superclass gives a method. -/
def hidingRegistry : Registry :=
  .build [.type { name := "Base", methods := [{ name := "item", returnType := "Base" }] },
    .type { name := "Sub", superclass := some "Base", fields := [⟨"item", "Sub", false⟩] }]

/-- The field is listed, and the method is looked up. -/
theorem listed_kind_differs :
    hidingRegistry.listedKind? "Sub" "item" = some .field ∧
      hidingRegistry.signature "Sub" "item" = some ⟨.method, ["Base"]⟩ ∧
      hidingRegistry.listedKind? "Sub" "item" ≠ hidingRegistry.signatureKind? "Sub" "item" := by
  decide +kernel

end ScriptConsole
