namespace ScriptConsole

/-- How many characters precede the first occurrence of `needle`. -/
def indexOf? (needle : List Char) : List Char → Option Nat
  | [] => if needle.isEmpty then some 0 else none
  | c :: cs => if needle.isPrefixOf (c :: cs) then some 0 else (indexOf? needle cs).map (· + 1)

theorem indexOf?_eq_some {needle text : List Char} {i : Nat} (h : indexOf? needle text = some i) :
    i ≤ text.length ∧ needle <+: text.drop i := by
  induction text generalizing i with
  | nil =>
    cases needle <;> simp_all [indexOf?]
  | cons c cs ih =>
    rw [indexOf?] at h
    split at h
    · next hp => cases h; exact ⟨by simp, List.isPrefixOf_iff_prefix.1 hp⟩
    · obtain ⟨j, hj, rfl⟩ := Option.map_eq_some_iff.1 h
      have := ih hj
      exact ⟨by simpa using this.1, by simpa using this.2⟩

/-- Replaces the occurrences of the non-empty text `n :: ns`, found from left to right so that
none of them overlap. -/
def replaceFrom (n : Char) (ns new : List Char) : List Char → List Char
  | [] => []
  | c :: cs =>
    if (n :: ns).isPrefixOf (c :: cs) then new ++ replaceFrom n ns new (cs.drop ns.length)
    else c :: replaceFrom n ns new cs
termination_by cs => cs.length
decreasing_by all_goals simp; try omega

/-- Replaces every occurrence of `old`.  The empty text occurs before each character and at the
end. -/
def replaceAll (old new text : List Char) : List Char :=
  match old with
  | [] => new ++ text.flatMap (fun c => c :: new)
  | n :: ns => replaceFrom n ns new text

end ScriptConsole
