import Mathlib.Data.List.Nodup
import ScriptConsole.Completion.Line

namespace ScriptConsole

/-- Where no two have the same name, all are found under their names. -/
theorem find?_eq_some_iff_of_nodup {α : Type} (label : α → String) (xs : List α)
    (h : (xs.map label).Nodup) (name : String) (x : α) :
    xs.find? (label · == name) = some x ↔ x ∈ xs ∧ label x = name := by
  constructor
  · exact fun hx => ⟨List.mem_of_find?_eq_some hx, by simpa using List.find?_some hx⟩
  · rintro ⟨hx, rfl⟩
    obtain ⟨y, hy⟩ : ∃ y, xs.find? (label · == label x) = some y :=
      Option.isSome_iff_exists.1 (List.find?_isSome.2 ⟨x, hx, by simp⟩)
    have hname : label y = label x := by simpa using List.find?_some hy
    rw [hy, List.inj_on_of_nodup_map h (List.mem_of_find?_eq_some hy) hx hname]

theorem get?_of_mem (s : MemberSet) (m : Member) (h : m ∈ s.members) : s.get? m.name = some m :=
  (find?_eq_some_iff_of_nodup Member.name s.members s.nodup m.name m).2 ⟨h, rfl⟩

/-- The members of a set made of a list are those that are the first of their names in it. -/
theorem mem_ofList_iff (ms : List Member) (m : Member) :
    m ∈ (MemberSet.ofList ms).members ↔ ms.find? (·.name == m.name) = some m := by
  rw [← MemberSet.get?_ofList]
  exact ⟨get?_of_mem _ m, List.mem_of_find?_eq_some⟩

/-- Members added to a set come behind it: those of new names, and of each name the first. -/
theorem members_insertAll (s : MemberSet) (ms : List Member) :
    (s.insertAll ms).members =
      s.members ++ (ms.filter (·.name ∉ s.names)).eraseDupsBy (fun a b => a.name == b.name) := by
  induction ms generalizing s with
  | nil => simp [MemberSet.insertAll, List.eraseDupsBy, List.eraseDupsBy.loop]
  | cons m ms ih =>
    have hstep : s.insertAll (m :: ms) = (s.insert m).insertAll ms := rfl
    rw [hstep, ih]
    by_cases h : m.name ∈ s.names
    · rw [MemberSet.insert_of_mem h, List.filter_cons_of_neg (by simpa using h)]
    · have hnew : (ms.filter fun n => n.name ∉ (s.insert m).names) =
          (ms.filter fun n => n.name ∉ s.names).filter
            fun n => decide ((n.name == m.name) = false) := by
        rw [List.filter_filter, MemberSet.names_insert, if_neg h]
        refine List.filter_congr ?_
        intro n _
        simp [not_or, and_comm]
      rw [List.filter_cons_of_pos (by simpa using h), List.eraseDupsBy_cons, hnew,
        MemberSet.members_insert_of_not_mem h, List.append_assoc, List.singleton_append]

/-- A set made of a list has the first member of each name, in the order of the list. -/
theorem members_ofList (ms : List Member) :
    (MemberSet.ofList ms).members = ms.eraseDupsBy (fun a b => a.name == b.name) := by
  have hall : ms.filter (·.name ∉ MemberSet.empty.names) = ms :=
    List.filter_eq_self.2 (by simp [MemberSet.names, MemberSet.empty])
  rw [MemberSet.ofList, members_insertAll, hall]
  rfl

theorem find?_named (names : List String) (kind : MemberKind) (owner name : String) :
    (names.map fun n => (⟨n, kind, owner⟩ : Member)).find? (·.name == name) =
      if name ∈ names then some ⟨name, kind, owner⟩ else none := by
  induction names with
  | nil => rfl
  | cons n names ih =>
    by_cases h : n = name
    · simp [h]
    · have hne : (n == name) = false := by simpa using h
      simp [hne, ih, Ne.symm h]

theorem pairwise_mergeSort_key {α : Type} (key : α → String) (xs : List α) :
    (xs.mergeSort fun a b => key a ≤ key b).Pairwise (key · ≤ key ·) := by
  have htrans : ∀ a b c : α, decide (key a ≤ key b) = true →
      decide (key b ≤ key c) = true → decide (key a ≤ key c) = true := by
    simpa using fun a b c => String.le_trans
  have htotal : ∀ a b : α, (decide (key a ≤ key b) || decide (key b ≤ key a)) = true := by
    simpa using fun a b => String.le_total _ _
  exact (List.pairwise_mergeSort htrans htotal xs).imp fun h => of_decide_eq_true h

theorem mem_candidates (members : MemberSet) (stem : String) (i : CompletionItem) :
    i ∈ candidates members stem ↔
      ∃ m ∈ members.members, stem.toList <+: m.name.toList ∧ .ofMember m = i := by
  simp [candidates, List.mem_mergeSort, and_assoc]

theorem exists_candidate_iff (members : MemberSet) (stem name : String)
    (hstem : stem.toList <+: name.toList) (kind : MemberKind) :
    (∃ i ∈ candidates members stem, i.label = name ∧ i.kind = kind) ↔
      (members.get? name).map Member.kind = some kind := by
  constructor
  · rintro ⟨i, hi, rfl, rfl⟩
    obtain ⟨m, hm, _, rfl⟩ := (mem_candidates members stem i).1 hi
    exact congrArg (Option.map Member.kind) (get?_of_mem members m hm)
  · intro h
    obtain ⟨m, hm, rfl⟩ := Option.map_eq_some_iff.1 h
    have hname : m.name = name := by simpa using List.find?_some hm
    have hmem := (mem_candidates members stem (.ofMember m)).2
      ⟨m, List.mem_of_find?_eq_some hm, hname ▸ hstem, rfl⟩
    exact ⟨_, hmem, hname, rfl⟩

end ScriptConsole
