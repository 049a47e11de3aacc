import ScriptConsole.Proofs.Member.Listing
import ScriptConsole.Proofs.Scope.History

namespace ScriptConsole.MemberSet

theorem eq_of_members {s t : MemberSet} (h : s.members = t.members) : s = t := by
  cases s
  cases t
  cases h
  rfl

theorem added_iff (s : MemberSet) (m : Member) : (s.add m).1 = true ↔ m.name ∉ s.names := by
  by_cases h : m.name ∈ s.names <;> simp [add, h]

theorem length_add (s : MemberSet) (m : Member) :
    (s.add m).2.members.length = s.members.length + if (s.add m).1 then 1 else 0 := by
  by_cases h : m.name ∈ s.names <;> simp [add, h]

theorem insertAll_append (s : MemberSet) (ms ns : List Member) :
    s.insertAll (ms ++ ns) = (s.insertAll ms).insertAll ns := by
  simp [insertAll]

theorem insertAll_concat (s : MemberSet) (ms : List Member) (m : Member) :
    s.insertAll (ms ++ [m]) = (s.insertAll ms).insert m :=
  insertAll_append s ms [m]

theorem ofList_concat (ms : List Member) (m : Member) :
    ofList (ms ++ [m]) = (ofList ms).insert m :=
  insertAll_concat empty ms m

theorem names_ofList (ms : List Member) : (ofList ms).names = (ms.map Member.name).eraseDups := by
  induction ms using List.reverseRecOn with
  | nil => rfl
  | append_singleton ms m ih =>
    rw [ofList_concat, names_insert, ih, List.map_append, List.map_singleton, eraseDups_concat]
    rfl

theorem eraseDupsBy_of_nodup {ms : List Member} (h : (ms.map Member.name).Nodup) :
    ms.eraseDupsBy (fun a b => a.name == b.name) = ms := by
  induction ms with
  | nil => rfl
  | cons m ms ih =>
    obtain ⟨hnew, hrest⟩ := List.nodup_cons.1 h
    have hothers : ms.filter (fun n => (n.name == m.name) = false) = ms := by
      rw [List.filter_eq_self]
      intro n hn
      have hne : n.name ≠ m.name := fun heq => hnew (heq ▸ List.mem_map_of_mem hn)
      simpa using hne
    rw [List.eraseDupsBy_cons, hothers, ih hrest]

/-- A set is made of the list of its members. -/
theorem ofList_members (a : MemberSet) : ofList a.members = a :=
  eq_of_members ((members_ofList a.members).trans (eraseDupsBy_of_nodup a.nodup))

/-- Of a list, the first members of their names are all that counts. -/
theorem insertAll_members_ofList (s : MemberSet) (ms : List Member) :
    s.insertAll (ofList ms).members = s.insertAll ms := by
  induction ms using List.reverseRecOn with
  | nil => rfl
  | append_singleton ms m ih =>
    rw [ofList_concat, insertAll_concat, ← ih]
    by_cases hm : m.name ∈ (ofList ms).names
    · have hold : m.name ∈ (s.insertAll (ofList ms).members).names :=
        mem_names_insertAll.2 (.inr hm)
      rw [insert_of_mem hm, insert_of_mem hold]
    · rw [members_insert_of_not_mem hm, insertAll_concat]

theorem members_union (a b : MemberSet) :
    (a.union b).members = a.members ++ b.members.filter (·.name ∉ a.names) := by
  have hnodup : ((b.members.filter (·.name ∉ a.names)).map Member.name).Nodup :=
    (List.filter_sublist.map Member.name).nodup b.nodup
  rw [union, members_insertAll, eraseDupsBy_of_nodup hnodup]

theorem names_union (a b : MemberSet) :
    (a.union b).names = a.names ++ b.names.filter (· ∉ a.names) := by
  rw [names, members_union, List.map_append, names, names, List.filter_map]
  rfl

theorem get?_union (a b : MemberSet) (name : String) :
    (a.union b).get? name = (a.get? name).or (b.get? name) :=
  get?_insertAll a b.members name

/-- The union of two sets is made of their lists, one behind the other. -/
theorem ofList_append (ms ns : List Member) :
    ofList (ms ++ ns) = (ofList ms).union (ofList ns) := by
  rw [ofList, insertAll_append, union, insertAll_members_ofList]
  rfl

theorem union_self (a : MemberSet) : a.union a = a := by
  have hnone : a.members.filter (·.name ∉ a.names) = [] := by
    rw [List.filter_eq_nil_iff]
    intro m hm
    have hname : m.name ∈ a.names := List.mem_map_of_mem hm
    simpa using hname
  apply eq_of_members
  rw [members_union, hnone, List.append_nil]

theorem union_assoc (a b c : MemberSet) : (a.union b).union c = a.union (b.union c) := by
  rw [← ofList_members a, ← ofList_members b, ← ofList_members c]
  simp only [← ofList_append, List.append_assoc]

/-- The set has the first member of each name of the list, in the order of the names. -/
structure Collects (s : MemberSet) (ms : List Member) : Prop where
  distinct : s.names.Nodup
  names : s.names = (ms.map Member.name).eraseDups
  first : ∀ name, s.get? name = ms.find? (·.name == name)

/-- The set has the names of `a` and behind them those that `b` has besides, with the members of `a`
where `a` has one and of `b` elsewhere. -/
structure IsUnion (s a b : MemberSet) : Prop where
  names : s.names = a.names ++ b.names.filter (· ∉ a.names)
  members : ∀ name, s.get? name = (a.get? name).or (b.get? name)

/-- What a list is collected to, what a union has, and what it does not depend on. -/
theorem ordered_union (ms ns : List Member) (m : Member) (a b c : MemberSet) :
    (ofList ms).Collects ms ∧ ofList a.members = a ∧
      (ofList ms).union (ofList ns) = ofList (ms ++ ns) ∧ (a.union b).IsUnion a b ∧
      a.union a = a ∧ (a.union b).union c = a.union (b.union c) ∧
      ((a.add m).1 = true ↔ m.name ∉ a.names) ∧
      (a.add m).2.members.length = a.members.length + if (a.add m).1 then 1 else 0 := by
  exact ⟨⟨(ofList ms).nodup, names_ofList ms, get?_ofList ms⟩, ofList_members a,
    (ofList_append ms ns).symm, ⟨names_union a b, get?_union a b⟩, union_self a, union_assoc a b c,
    added_iff a m, length_add a m⟩

end ScriptConsole.MemberSet
