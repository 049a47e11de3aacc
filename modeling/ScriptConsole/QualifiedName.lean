namespace ScriptConsole

/-- The parts before and after the last dot. -/
def splitLastDot : List Char → Option (List Char × List Char)
  | [] => none
  | c :: cs =>
    match splitLastDot cs with
    | some (before, after) => some (c :: before, after)
    | none => if c = '.' then some ([], cs) else none

theorem splitLastDot_eq_none_iff {cs : List Char} : splitLastDot cs = none ↔ '.' ∉ cs := by
  induction cs with
  | nil => simp [splitLastDot]
  | cons c cs ih =>
    rw [splitLastDot]
    cases h : splitLastDot cs with
    | none =>
      have hn := ih.1 h
      by_cases hc : c = '.'
      · simp [hc]
      · simp [hc, hn, Ne.symm hc]
    | some p => simp_all

theorem splitLastDot_append {before after : List Char} (h : '.' ∉ after) :
    splitLastDot (before ++ '.' :: after) = some (before, after) := by
  induction before with
  | nil => simp [splitLastDot, splitLastDot_eq_none_iff.2 h]
  | cons c before ih => simp [splitLastDot, ih]

theorem eq_append_of_splitLastDot {cs before after : List Char}
    (h : splitLastDot cs = some (before, after)) :
    cs = before ++ '.' :: after ∧ '.' ∉ after := by
  induction cs generalizing before with
  | nil => simp [splitLastDot] at h
  | cons c cs ih =>
    rw [splitLastDot] at h
    cases hs : splitLastDot cs with
    | none =>
      by_cases hc : c = '.'
      · simp only [hs, hc, if_true, Option.some.injEq, Prod.mk.injEq] at h
        obtain ⟨rfl, rfl⟩ := h
        exact ⟨by simp [hc], splitLastDot_eq_none_iff.1 hs⟩
      · simp [hs, hc] at h
    | some p =>
      simp only [hs, Option.some.injEq, Prod.mk.injEq] at h
      obtain ⟨rfl, rfl⟩ := h
      obtain ⟨rfl, ha⟩ := ih hs
      exact ⟨rfl, ha⟩

/-- Components joined by dots, as in `java.util.List`.  The empty name is the root above every
package. -/
abbrev QualifiedName := String

namespace QualifiedName

/-- The last component. -/
def simple (q : QualifiedName) : String :=
  match splitLastDot q.toList with
  | some (_, after) => String.ofList after
  | none => q

/-- Everything before the last component, if there are several. -/
def parent? (q : QualifiedName) : Option QualifiedName :=
  (splitLastDot q.toList).map fun p => String.ofList p.1

theorem length_parent?_lt {q p : QualifiedName} (h : q.parent? = some p) :
    p.length < q.length := by
  obtain ⟨⟨before, after⟩, hs, rfl⟩ := Option.map_eq_some_iff.1 h
  have := congrArg List.length (eq_append_of_splitLastDot hs).1
  simp only [List.length_append, List.length_cons] at this
  simp only [String.length_ofList]
  rw [← String.length_toList]
  omega

/-- The name of `child` inside `parent`; the root adds nothing. -/
def join (parent : QualifiedName) (child : String) : QualifiedName :=
  if parent.isEmpty then child else parent ++ "." ++ child

theorem toList_join {parent : QualifiedName} (h : parent ≠ "") (child : String) :
    (join parent child).toList = parent.toList ++ '.' :: child.toList := by
  have hp : parent.isEmpty = false := by simpa using h
  simp [join, hp]

theorem parent?_join {parent : QualifiedName} (h : parent ≠ "") {child : String}
    (hc : '.' ∉ child.toList) : parent? (join parent child) = some parent := by
  rw [parent?, toList_join h, splitLastDot_append hc]
  simp

theorem simple_join {parent : QualifiedName} (h : parent ≠ "") {child : String}
    (hc : '.' ∉ child.toList) : simple (join parent child) = child := by
  rw [simple, toList_join h, splitLastDot_append hc]
  simp

/-- What remains of `q` below `path`, or nothing when `q` is not below it. -/
def below? (path q : QualifiedName) : Option (List Char) :=
  if path.isEmpty then some q.toList else (path.toList ++ ['.']).isPrefixOf? q.toList

/-- The component of `q` directly below `path`. -/
def child? (path q : QualifiedName) : Option String :=
  match below? path q with
  | none => none
  | some rest =>
    let component := rest.takeWhile (· ≠ '.')
    if component.isEmpty then none else some (String.ofList component)

/-- The name and all its ancestors, nearest first, the root left out. -/
def lineage (q : QualifiedName) : List QualifiedName :=
  if q.isEmpty then []
  else
    match _h : q.parent? with
    | none => [q]
    | some p => q :: lineage p
termination_by q.length
decreasing_by exact length_parent?_lt _h

end QualifiedName
end ScriptConsole
