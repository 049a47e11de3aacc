import ScriptConsole.Member.Basic

namespace ScriptConsole

/-- Members in the order in which their names came, one for each name.  The first of a name stays, so
that overloads, overrides and members reached through several supertypes fall together. -/
structure MemberSet where
  members : List Member
  nodup : (members.map Member.name).Nodup

namespace MemberSet

def empty : MemberSet := ⟨[], List.nodup_nil⟩

instance : Inhabited MemberSet := ⟨empty⟩

def names (s : MemberSet) : List String := s.members.map Member.name

def contains (s : MemberSet) (name : String) : Bool := s.names.contains name

def get? (s : MemberSet) (name : String) : Option Member := s.members.find? (·.name == name)

/-- Adds a member at the end unless its name is taken, and says whether it was added. -/
def add (s : MemberSet) (m : Member) : Bool × MemberSet :=
  if h : m.name ∈ s.names then (false, s)
  else (true, ⟨s.members ++ [m], by
    rw [List.map_append, List.nodup_append]
    refine ⟨s.nodup, by simp, ?_⟩
    intro a ha b hb hab
    simp only [List.map_cons, List.map_nil, List.mem_singleton] at hb
    exact h (hb ▸ hab ▸ ha)⟩)

def insert (s : MemberSet) (m : Member) : MemberSet := (s.add m).2

theorem insert_of_mem {s : MemberSet} {m : Member} (h : m.name ∈ s.names) : s.insert m = s := by
  simp [insert, add, h]

theorem members_insert_of_not_mem {s : MemberSet} {m : Member} (h : m.name ∉ s.names) :
    (s.insert m).members = s.members ++ [m] := by
  simp [insert, add, h]

def insertAll (s : MemberSet) (ms : List Member) : MemberSet := ms.foldl insert s

def ofList (ms : List Member) : MemberSet := empty.insertAll ms

/-- The members of `s`, then those of `t` whose names `s` lacks. -/
def union (s t : MemberSet) : MemberSet := s.insertAll t.members

/-- Equality without regard to order. -/
def same (s t : MemberSet) : Bool :=
  s.members.length == t.members.length && s.members.all fun m => t.get? m.name == some m

theorem names_insert (s : MemberSet) (m : Member) :
    (s.insert m).names = if m.name ∈ s.names then s.names else s.names ++ [m.name] := by
  by_cases h : m.name ∈ s.names
  · rw [insert_of_mem h, if_pos h]
  · rw [if_neg h, names, members_insert_of_not_mem h, List.map_append]
    rfl

theorem mem_names_insertAll {s : MemberSet} {ms : List Member} {name : String} :
    name ∈ (s.insertAll ms).names ↔ name ∈ s.names ∨ name ∈ ms.map Member.name := by
  induction ms generalizing s with
  | nil => simp [insertAll]
  | cons m ms ih =>
    have step : s.insertAll (m :: ms) = (s.insert m).insertAll ms := rfl
    rw [step, ih, names_insert]
    by_cases h : m.name ∈ s.names
    · by_cases hn : name = m.name <;> simp_all
    · by_cases hn : name = m.name <;> simp_all

theorem mem_names_ofList {ms : List Member} {name : String} :
    name ∈ (ofList ms).names ↔ name ∈ ms.map Member.name := by
  rw [ofList, mem_names_insertAll]
  simp [names, empty]

theorem mem_names_unions {s : MemberSet} {sets : List MemberSet} {name : String} :
    name ∈ (sets.foldl union s).names ↔ name ∈ s.names ∨ ∃ t ∈ sets, name ∈ t.names := by
  induction sets generalizing s with
  | nil => simp
  | cons t sets ih =>
    simp only [List.foldl_cons, ih, union, mem_names_insertAll, List.mem_cons, exists_eq_or_imp,
      or_assoc]
    rfl

theorem get?_insert (s : MemberSet) (m : Member) (name : String) :
    (s.insert m).get? name = (s.get? name).or (if m.name = name then some m else none) := by
  by_cases h : m.name ∈ s.names
  · rw [insert_of_mem h]
    by_cases hn : m.name = name
    · subst hn
      obtain ⟨x, hx, hxn⟩ := List.mem_map.1 h
      have hsome : (s.get? m.name).isSome = true := List.find?_isSome.2 ⟨x, hx, by simp [hxn]⟩
      rw [Option.or_of_isSome hsome]
    · simp [hn]
  · rw [get?, members_insert_of_not_mem h, List.find?_append, get?]
    by_cases hn : m.name = name <;> simp [hn]

theorem get?_insertAll (s : MemberSet) (ms : List Member) (name : String) :
    (s.insertAll ms).get? name = (s.get? name).or (ms.find? (·.name == name)) := by
  induction ms generalizing s with
  | nil => simp [insertAll]
  | cons m ms ih =>
    have step : s.insertAll (m :: ms) = (s.insert m).insertAll ms := rfl
    rw [step, ih, get?_insert, Option.or_assoc, List.find?_cons]
    by_cases h : m.name = name
    · simp [h]
    · have hne : (m.name == name) = false := by simpa using h
      simp [h, hne]

theorem get?_ofList (ms : List Member) (name : String) :
    (ofList ms).get? name = ms.find? (·.name == name) := by
  rw [ofList, get?_insertAll]
  rfl

end MemberSet
end ScriptConsole
