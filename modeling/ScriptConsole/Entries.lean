namespace ScriptConsole

/-- Values stored under names, in the order in which the names first came. -/
abbrev Entries (α : Type) := List (String × α)

namespace Entries
variable {α : Type}

/-- Stores `value` under `name`: in the place of an earlier entry, else at the end. -/
def set (name : String) (value : α) : Entries α → Entries α
  | [] => [(name, value)]
  | entry :: rest =>
    if entry.1 = name then (name, value) :: rest else entry :: set name value rest

/-- The value of the first entry under `name`. -/
def get? (name : String) : Entries α → Option α
  | [] => none
  | entry :: rest => if entry.1 = name then some entry.2 else get? name rest

def names (entries : Entries α) : List String := entries.map Prod.fst

theorem get?_set (entries : Entries α) (name other : String) (value : α) :
    get? other (set name value entries) =
      if name = other then some value else get? other entries := by
  induction entries with
  | nil => simp [set, get?]
  | cons entry rest ih =>
    by_cases h : entry.1 = name
    · by_cases ho : name = other <;> simp [set, h, get?, ho]
    · by_cases ho : name = other
      · subst ho
        simp [set, h, get?, ih]
      · simp [set, h, get?, ih, ho]

theorem get?_eq_none_iff (entries : Entries α) (name : String) :
    get? name entries = none ↔ name ∉ names entries := by
  induction entries with
  | nil => simp [get?, names]
  | cons entry rest ih =>
    rw [names] at ih ⊢
    by_cases h : entry.1 = name
    · simp [get?, h]
    · simp [get?, h, ih, Ne.symm h]

theorem names_set (entries : Entries α) (name : String) (value : α) :
    names (set name value entries) =
      if name ∈ names entries then names entries else names entries ++ [name] := by
  induction entries with
  | nil => simp [set, names]
  | cons entry rest ih =>
    by_cases h : entry.1 = name
    · simp [set, names, h]
    · have hne : ¬ name = entry.1 := fun e => h e.symm
      simp only [names] at ih
      by_cases hm : name ∈ rest.map Prod.fst <;> simp [set, names, h, hne, ih, hm]

theorem nodup_names_set {entries : Entries α} (h : entries.names.Nodup) (name : String)
    (value : α) : (names (set name value entries)).Nodup := by
  rw [names_set]
  split
  · exact h
  · next hn =>
    rw [List.nodup_append]
    refine ⟨h, by simp, ?_⟩
    intro a ha b hb hab
    rw [List.mem_singleton] at hb
    exact hn (hb ▸ hab ▸ ha)

theorem mem_of_get? {entries : Entries α} {name : String} {value : α}
    (h : get? name entries = some value) : (name, value) ∈ entries := by
  induction entries with
  | nil => cases h
  | cons entry rest ih =>
    rw [get?] at h
    split at h
    · next hname =>
      cases h
      exact hname ▸ List.mem_cons_self
    · exact List.mem_cons_of_mem _ (ih h)

theorem mem_of_mem_set {entries : Entries α} {name : String} {value : α} {e : String × α}
    (h : e ∈ set name value entries) : e = (name, value) ∨ e ∈ entries := by
  induction entries with
  | nil => exact .inl (List.mem_singleton.1 h)
  | cons entry rest ih =>
    rw [set] at h
    split at h
    · exact (List.mem_cons.1 h).imp_right (List.mem_cons_of_mem _)
    · rcases List.mem_cons.1 h with rfl | h
      · exact .inr List.mem_cons_self
      · exact (ih h).imp_right (List.mem_cons_of_mem _)

theorem filter_set (entries : Entries α) (name : String) (value : α) :
    (set name value entries).filter (·.1 != name) = entries.filter (·.1 != name) := by
  induction entries with
  | nil => simp [set]
  | cons entry rest ih =>
    by_cases h : entry.1 = name
    · simp [set, h]
    · simp [set, h, ih]

theorem set_set (entries : Entries α) (name : String) (v w : α) :
    set name w (set name v entries) = set name w entries := by
  induction entries with
  | nil => simp [set]
  | cons entry rest ih =>
    by_cases h : entry.1 = name
    · simp [set, h]
    · simp [set, h, ih]

end Entries
end ScriptConsole
