import Mathlib.Data.List.Basic
import Mathlib.Data.List.TakeWhile
import ScriptConsole.QualifiedName

namespace ScriptConsole.QualifiedName

theorem lineage_cons {p parent : QualifiedName} (hp : p ≠ "") (h : parent? p = some parent) :
    lineage p = p :: lineage parent := by
  rw [lineage, if_neg (by simpa using hp)]
  split
  · next hnone => cases h.symm.trans hnone
  · next hsome =>
    cases h.symm.trans hsome
    rfl

/-- No dot follows the last one. -/
theorem dot_prefix_iff (q before after : List Char) (h : '.' ∉ after) :
    q ++ ['.'] <+: before ++ '.' :: after ↔ q = before ∨ q ++ ['.'] <+: before := by
  constructor
  · intro ⟨rest, hrest⟩
    have hcut : q ++ '.' :: rest = before ++ '.' :: after := by simpa using hrest
    rcases List.append_eq_append_iff.1 hcut with ⟨gap, hbefore, hgap⟩ | ⟨gap, hq, hgap⟩
    · rcases List.cons_eq_append_iff.1 hgap with ⟨rfl, _⟩ | ⟨gap, rfl, _⟩
      · left
        simpa using hbefore.symm
      · right
        exact ⟨gap, by simpa using hbefore.symm⟩
    · rcases List.cons_eq_append_iff.1 hgap with ⟨rfl, _⟩ | ⟨gap, rfl, hafter⟩
      · left
        simpa using hq
      · exact (h (by simp [hafter])).elim
  · rintro (rfl | hprefix)
    · exact ⟨after, by simp⟩
    · exact hprefix.trans (List.prefix_append _ _)

theorem mem_lineage_iff (p q : QualifiedName) :
    q ∈ lineage p ↔ q ≠ "" ∧ (q = p ∨ q.toList ++ ['.'] <+: p.toList) := by
  fun_induction lineage p with
  | case1 p hp =>
    obtain rfl : p = "" := by simpa using hp
    simp
  | case2 p hp hparent =>
    have hdot : '.' ∉ p.toList := by
      rw [← splitLastDot_eq_none_iff]
      simpa [parent?] using hparent
    have hprefix : ¬ q.toList ++ ['.'] <+: p.toList := fun h => hdot (h.subset (by simp))
    have hne : p ≠ "" := by simpa using hp
    rw [List.mem_singleton, or_iff_left hprefix]
    constructor
    · rintro rfl
      exact ⟨hne, rfl⟩
    · exact fun h => h.2
  | case3 p hp parent hparent ih =>
    obtain ⟨⟨before, after⟩, hsplit, rfl⟩ := Option.map_eq_some_iff.1 hparent
    obtain ⟨hcut, hdot⟩ := eq_append_of_splitLastDot hsplit
    have hne : p ≠ "" := by simpa using hp
    have hbefore : q.toList = before ↔ q = String.ofList before := by
      rw [← String.toList_inj, String.toList_ofList]
    rw [List.mem_cons, ih, hcut, dot_prefix_iff _ _ _ hdot, hbefore, String.toList_ofList]
    constructor
    · rintro (rfl | ⟨hq, hrest⟩)
      · exact ⟨hne, .inl rfl⟩
      · exact ⟨hq, .inr hrest⟩
    · rintro ⟨hq, rfl | hrest⟩
      · exact .inl rfl
      · exact .inr ⟨hq, hrest⟩

/-- A proper ancestor is an ancestor of the parent. -/
theorem exists_parent {p q : QualifiedName} (hp : p ≠ "")
    (hfront : p.toList ++ ['.'] <+: q.toList) :
    ∃ parent, parent? q = some parent ∧ p ∈ lineage parent := by
  cases hsplit : splitLastDot q.toList with
  | none => exact (splitLastDot_eq_none_iff.1 hsplit (hfront.subset (by simp))).elim
  | some cut =>
    obtain ⟨before, after⟩ := cut
    obtain ⟨hcut, hdot⟩ := eq_append_of_splitLastDot hsplit
    refine ⟨String.ofList before, by rw [parent?, hsplit]; rfl, ?_⟩
    rw [hcut, dot_prefix_iff _ _ _ hdot] at hfront
    rwa [mem_lineage_iff, and_iff_right hp, ← String.toList_inj, String.toList_ofList]

theorem self_mem_lineage {p : QualifiedName} (h : p ≠ "") : p ∈ lineage p :=
  (mem_lineage_iff p p).2 ⟨h, .inl rfl⟩

theorem lineage_subset {p q : QualifiedName} (h : q ∈ lineage p) : lineage q ⊆ lineage p := by
  intro s hs
  obtain ⟨_, hq⟩ := (mem_lineage_iff p q).1 h
  obtain ⟨hne, hs⟩ := (mem_lineage_iff q s).1 hs
  refine (mem_lineage_iff p s).2 ⟨hne, ?_⟩
  rcases hq with rfl | hq
  · exact hs
  · right
    rcases hs with rfl | hs
    · exact hq
    · exact hs.trans ((List.prefix_append _ _).trans hq)

theorem takeWhile_ne_dot_iff (cs component : List Char) :
    cs.takeWhile (· ≠ '.') = component ↔
      '.' ∉ component ∧ (component = cs ∨ component ++ ['.'] <+: cs) := by
  constructor
  · rintro rfl
    refine ⟨fun h => by simpa using List.mem_takeWhile_imp h, ?_⟩
    have hcut := List.takeWhile_append_dropWhile (p := (· ≠ '.')) (l := cs)
    have hhead := List.head?_dropWhile_not (· ≠ '.') cs
    generalize cs.dropWhile (· ≠ '.') = rest at hcut hhead
    cases rest with
    | nil =>
      left
      simpa using hcut
    | cons c rest =>
      right
      obtain rfl : c = '.' := by simpa using hhead
      exact ⟨rest, by simpa using hcut⟩
  · rintro ⟨hdot, hcs⟩
    have hkeep : ∀ c ∈ component, decide (c ≠ '.') = true := by
      intro c hc
      rw [decide_eq_true_iff]
      rintro rfl
      exact hdot hc
    rcases hcs with rfl | ⟨rest, rfl⟩
    · exact List.takeWhile_eq_self_iff.2 hkeep
    · rw [List.append_assoc, List.takeWhile_append_of_pos hkeep]
      simp

theorem toList_join_root (path : QualifiedName) (child : String) :
    (join path child).toList = (join path "").toList ++ child.toList := by
  by_cases h : path = ""
  · simp [join, h]
  · simp [toList_join h]

theorem join_ne_empty (path : QualifiedName) {child : String} (h : child ≠ "") :
    join path child ≠ "" := by
  intro hjoin
  have hlist := toList_join_root path child
  rw [hjoin] at hlist
  exact h (by simpa using (List.append_eq_nil_iff.1 hlist.symm).2)

theorem getD_parent?_iff {path : QualifiedName} (hpath : path ≠ "") (q : QualifiedName) :
    (parent? q).getD "" = path ↔ parent? q = some path := by
  cases parent? q <;> simp [hpath.symm]

theorem dot_not_mem_simple (q : QualifiedName) : '.' ∉ (simple q).toList := by
  unfold simple
  split
  · next hsplit =>
    rw [String.toList_ofList]
    exact (eq_append_of_splitLastDot hsplit).2
  · next hsplit => exact splitLastDot_eq_none_iff.1 hsplit

theorem parent?_simple_iff {path : QualifiedName} {child : String} (hpath : path ≠ "")
    (hdot : '.' ∉ child.toList) (q : QualifiedName) :
    parent? q = some path ∧ simple q = child ↔ q = join path child := by
  constructor
  · rintro ⟨hparent, rfl⟩
    obtain ⟨⟨before, after⟩, hsplit, rfl⟩ := Option.map_eq_some_iff.1 hparent
    rw [← String.toList_inj, toList_join hpath, simple, hsplit, String.toList_ofList,
      String.toList_ofList]
    exact (eq_append_of_splitLastDot hsplit).1
  · rintro rfl
    exact ⟨parent?_join hpath hdot, simple_join hpath hdot⟩

theorem below?_eq_some_iff (path q : QualifiedName) (rest : List Char) :
    below? path q = some rest ↔ q.toList = (join path "").toList ++ rest := by
  unfold below?
  split
  · next h =>
    simp [join, h]
  · next h =>
    have hpath : path ≠ "" := by simpa using h
    rw [List.isPrefixOf?_eq_some_iff_append_eq, toList_join hpath]
    exact eq_comm

/-- An ancestor one component below a path is where what remains below the path has a dot or its
end. -/
theorem join_mem_lineage_iff (path q : QualifiedName) {child : String} (h : child ≠ "") :
    join path child ∈ lineage q ↔
      ∃ rest, below? path q = some rest ∧
        (child.toList = rest ∨ child.toList ++ ['.'] <+: rest) := by
  rw [mem_lineage_iff, and_iff_right (join_ne_empty path h)]
  simp only [below?_eq_some_iff]
  constructor
  · rintro (rfl | ⟨after, hafter⟩)
    · exact ⟨_, toList_join_root path child, .inl rfl⟩
    · refine ⟨child.toList ++ ['.'] ++ after, ?_, .inr (List.prefix_append _ _)⟩
      rw [← hafter, toList_join_root]
      simp only [List.append_assoc]
  · rintro ⟨rest, hq, hrest | hrest⟩
    · left
      rw [← String.toList_inj, toList_join_root, hq, hrest]
    · right
      rw [toList_join_root, hq, List.append_assoc]
      exact (List.prefix_append_right_inj _).2 hrest

theorem child?_eq_some (path q : QualifiedName) (child : String) :
    child? path q = some child ↔ child ≠ "" ∧ ∃ rest, below? path q = some rest ∧
      rest.takeWhile (· ≠ '.') = child.toList := by
  unfold child?
  split
  · next hnone => simp [hnone]
  · next rest hrest =>
    simp only [hrest, Option.some.injEq, exists_eq_left']
    split
    · next hnil =>
      constructor
      · exact nofun
      · rintro ⟨hne, hchild⟩
        rw [hchild] at hnil
        exact (hne (by simpa using hnil)).elim
    · next hnil =>
      rw [Option.some.injEq, ← String.toList_inj, String.toList_ofList, iff_and_self]
      rintro hchild rfl
      exact hnil (by rw [hchild]; rfl)

/-- The component below a path is the last one of an ancestor. -/
theorem child?_eq_some_iff (path q : QualifiedName) (child : String) :
    child? path q = some child ↔
      child ≠ "" ∧ '.' ∉ child.toList ∧ join path child ∈ lineage q := by
  rw [child?_eq_some]
  refine and_congr_right ?_
  intro hne
  rw [join_mem_lineage_iff path q hne]
  simp only [takeWhile_ne_dot_iff]
  constructor
  · rintro ⟨rest, hbelow, hdot, hrest⟩
    exact ⟨hdot, rest, hbelow, hrest⟩
  · rintro ⟨hdot, rest, hbelow, hrest⟩
    exact ⟨rest, hbelow, hdot, hrest⟩

/-- What has a component below a path spells the path and a dot in front of it. -/
theorem dot_prefix_of_child? {path q : QualifiedName} {child : String} (hpath : path ≠ "")
    (h : child? path q = some child) : path.toList ++ ['.'] <+: q.toList := by
  obtain ⟨_, rest, hbelow, _⟩ := (child?_eq_some path q child).1 h
  rw [below?_eq_some_iff, toList_join hpath] at hbelow
  exact ⟨rest, hbelow.symm⟩

theorem child?_self (path : QualifiedName) : child? path path = none := by
  by_cases hpath : path = ""
  · subst hpath
    rfl
  · rw [Option.eq_none_iff_forall_ne_some]
    intro child h
    have hlonger := (dot_prefix_of_child? hpath h).length_le
    rw [List.length_append, List.length_singleton] at hlonger
    omega

/-- The component of a name directly below a path is what leads from the path in one step to the
name, or to a front of the name that a dot follows.  A path is not below itself, and what merely
begins with the text of a path is not below it. -/
theorem below_iff_joined (path q : QualifiedName) (child : String) :
    (child? path q = some child ↔
      child ≠ "" ∧ '.' ∉ child.toList ∧
        (q = join path child ∨ (join path child ++ ".").toList <+: q.toList)) ∧
      child? path path = none ∧
      (path ≠ "" → ¬ (path ++ ".").toList <+: q.toList → child? path q = none) := by
  refine ⟨?_, child?_self path, ?_⟩
  · rw [child?_eq_some_iff]
    refine and_congr_right ?_
    intro hchild
    rw [mem_lineage_iff, and_iff_right (join_ne_empty path hchild), String.toList_append]
    exact and_congr_right fun _ => or_congr_left eq_comm
  · intro hpath hsibling
    rw [Option.eq_none_iff_forall_ne_some]
    intro child h
    rw [String.toList_append] at hsibling
    exact hsibling (dot_prefix_of_child? hpath h)

theorem below_iff_joined_sibling :
    child? "java" "java.util.List" = some "util" ∧
      ¬ ("java" ++ ".").toList <+: "javax.net".toList ∧ child? "java" "javax.net" = none := by
  have hsibling : ¬ ("java" ++ ".").toList <+: "javax.net".toList := by decide
  refine ⟨?_, hsibling, (below_iff_joined "java" "javax.net" "").2.2 (by decide) hsibling⟩
  have hutil : (join "java" "util" ++ ".").toList <+: "java.util.List".toList := by decide
  exact (below_iff_joined "java" "java.util.List" "util").1.2 ⟨by decide, by decide, .inr hutil⟩

end ScriptConsole.QualifiedName
