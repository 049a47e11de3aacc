import ScriptConsole.Proofs.Token.Longest

namespace ScriptConsole

theorem dropClosing?_eq_some (c : Char) (cs inside : List Char) :
    dropClosing? c cs = some inside ↔ cs = inside ++ [c] := by
  unfold dropClosing?
  split
  · next hlast =>
    obtain ⟨front, rfl⟩ := List.getLast?_eq_some_iff.1 hlast
    simp [eq_comm]
  · next hlast =>
    constructor
    · intro h
      cases h
    · rintro rfl
      exact (hlast List.getLast?_concat).elim

/-- A quote at the end of an open string is escaped, by a backslash that is left without it. -/
theorem unescape_open (cs : List Char) (h : EscapedText (cs ++ ['"'])) : unescape cs = none := by
  fun_induction unescape cs with
  | case1 =>
    cases h with
    | plain _ _ hq _ _ => exact (hq rfl).elim
  | case2 => rfl
  | case3 c cs ih =>
    cases h with
    | plain _ _ _ hb _ => exact (hb rfl).elim
    | pair _ _ _ h => rw [ih h]; rfl
  | case4 c cs hb hb' ih =>
    have hrest : EscapedText (cs ++ ['"']) := by
      generalize htext : c :: cs ++ ['"'] = text at h
      cases h with
      | nil => cases htext
      | plain _ _ _ _ h =>
        cases htext
        exact h
      | pair d ds _ _ =>
        obtain ⟨rfl, htail⟩ := List.cons.inj htext
        cases cs with
        | nil => exact (hb rfl rfl).elim
        | cons e es => exact (hb' e es rfl rfl).elim
    rw [ih hrest]
    rfl

theorem unquote_unterminated (line : String) (t : Token) (ht : t ∈ tokenize line)
    (h : t.kind = .unterminatedString) : unquote t.text = none := by
  have hform := form_of_mem_tokenize ht (by simp [h])
  rw [h] at hform
  unfold unquote
  generalize t.text.toList = text at hform
  cases hform with
  | openRaw cs hcs =>
    cases hclose : dropClosing? '\'' cs with
    | none => simp [hclose]
    | some inside =>
      rw [(dropClosing?_eq_some _ _ _).1 hclose] at hcs
      exact (hcs (List.mem_append_right inside List.mem_cons_self)).elim
  | openEscaped cs hcs =>
    cases hclose : dropClosing? '"' cs with
    | none => simp [hclose]
    | some inside =>
      rw [(dropClosing?_eq_some _ _ _).1 hclose] at hcs
      simp [hclose, unescape_open inside hcs]
  | punctuation c _ hmark => simp [punctuationMarks] at hmark

/-- A backslash with nothing to escape: the line ends behind it, or a line feed follows. -/
inductive DeadEscape : List Char → Prop where
  | atEnd : DeadEscape ['\\']
  | lineFeed (cs : List Char) : DeadEscape ('\\' :: '\n' :: cs)

theorem munchRaw_open_rest (cs : List Char) (h : (munchRaw cs).1 = .unterminatedString) :
    cs.drop (munchRaw cs).2 = [] := by
  unfold munchRaw at h ⊢
  dsimp only at h ⊢
  split
  · next hclosed =>
    rw [if_pos hclosed] at h
    cases h
  · next hopen => exact List.drop_eq_nil_of_le (Nat.le_of_not_lt hopen)

/-- Nothing but the end of the line and a backslash with nothing to escape stops an open string. -/
theorem munchEscaped_stops (cs : List Char) (h : munchEscaped cs = (.unterminatedString, 0)) :
    cs = [] ∨ DeadEscape cs := by
  unfold munchEscaped at h
  split at h
  · exact .inl rfl
  · cases h
  · exact .inr .atEnd
  · next c cs =>
    split at h
    · next hc =>
      subst hc
      exact .inr (.lineFeed cs)
    · simp [Munch.extend] at h
  · simp [Munch.extend] at h

theorem munchEscaped_open_rest (cs : List Char) (h : (munchEscaped cs).1 = .unterminatedString) :
    cs.drop (munchEscaped cs).2 = [] ∨ DeadEscape (cs.drop (munchEscaped cs).2) := by
  obtain ⟨inside, rest, rfl, hin, hrest | ⟨rest, rfl⟩⟩ := exists_escapedText cs
  · rw [munchEscaped_append inside rest hin, hrest, Munch.extend, Nat.zero_add, List.drop_left]
    exact munchEscaped_stops rest hrest
  · rw [munchEscaped_append inside _ hin, munchEscaped] at h
    cases h

section Extent
variable {line : String} {before after : List Token} {t : Token}
  (h : tokenize line = before ++ t :: after)
include h

/-- What stands behind an open string. -/
theorem spelling_behind_open (hkind : t.kind = .unterminatedString) :
    spelling after = [] ∨ t.text.toList.head? = some '"' ∧ DeadEscape (spelling after) := by
  obtain ⟨c, rest, hspelling, ht⟩ := tokensFrom_token 0 line.toList before after t h
  have hafter : spelling after = rest.drop (munch c rest).2 := by
    rw [spelling_cons, ht, String.toList_ofList, List.cons_append] at hspelling
    have htail := (List.cons.inj hspelling).2
    conv at htail => rhs; rw [← List.take_append_drop (munch c rest).2 rest]
    exact List.append_cancel_left htail
  have hopen : (munch c rest).1 = .unterminatedString := by rw [← hkind, ht]
  rw [hafter, ht, String.toList_ofList]
  rcases munched_quoted (munch_cases c rest) (.inr hopen) with ⟨_, hm⟩ | ⟨rfl, hm⟩
  · rw [hm] at hopen ⊢
    exact .inl (munchRaw_open_rest rest hopen)
  · rw [hm] at hopen ⊢
    exact (munchEscaped_open_rest rest hopen).imp_right fun hdead => ⟨rfl, hdead⟩

/-- A token that ends where the line ends is the last. -/
theorem stop_eq_size_iff : t.stop = line.utf8ByteSize ↔ after = [] := by
  have hstop := (token_extent line before after t h).2.1
  rw [← byteSize_tokenize, h]
  cases after with
  | nil => simpa using hstop
  | cons u after =>
    have hu : tokenize line = (before ++ [t]) ++ u :: after := by simp [h]
    obtain ⟨hoffset, hstop', hlt⟩ := token_extent line _ after u hu
    have hlonger : t.stop < byteSize (spelling (before ++ t :: u :: after)) := by
      simp only [spelling_append, spelling_cons, spelling_nil, byteSize_append,
        List.append_nil] at hstop hoffset hstop' ⊢
      omega
    exact iff_of_false (Nat.ne_of_lt hlonger) (List.cons_ne_nil u after)

/-- An open string is the last token, and then runs to the end of the line, unless it is
double-quoted and stops in front of a backslash that has nothing to escape. -/
theorem open_string_last_iff (hkind : t.kind = .unterminatedString) :
    (t.stop = line.utf8ByteSize ↔ after = []) ∧
      (after ≠ [] ↔ t.text.toList.head? = some '"' ∧ DeadEscape (spelling after)) := by
  have hsize := stop_eq_size_iff h
  refine ⟨hsize, ?_, ?_⟩
  · intro hne
    refine (spelling_behind_open h hkind).resolve_left ?_
    intro hnil
    refine hne (hsize.1 ?_)
    rw [(token_extent line before after t h).2.1, ← byteSize_tokenize, h]
    simp [hnil]
  · rintro ⟨_, hdead⟩ rfl
    cases hdead

end Extent

/-- An escaped quote leaves a string open, up to the end of the line.  A backslash in front of a
line feed cuts a string off. -/
theorem open_string_last_iff_escaped :
    (tokenize "f(\"a\\\"" =
        [⟨.ident, "f", 0⟩, ⟨.lParen, "(", 1⟩] ++ ⟨.unterminatedString, "\"a\\\"", 2⟩ :: [] ∧
      (⟨.unterminatedString, "\"a\\\"", 2⟩ : Token).stop = "f(\"a\\\"".utf8ByteSize) ∧
    tokenize "\"a\\\nb" = [] ++ ⟨.unterminatedString, "\"a", 0⟩ ::
        [⟨.unknown, "\\", 2⟩, ⟨.whitespace, "\n", 3⟩, ⟨.ident, "b", 4⟩] ∧
      DeadEscape "\\\nb".toList := by
  have hescaped : tokenize "f(\"a\\\"" =
      [⟨.ident, "f", 0⟩, ⟨.lParen, "(", 1⟩] ++ ⟨.unterminatedString, "\"a\\\"", 2⟩ :: [] := by
    decide +kernel
  have hcut : tokenize "\"a\\\nb" = [] ++ ⟨.unterminatedString, "\"a", 0⟩ ::
      [⟨.unknown, "\\", 2⟩, ⟨.whitespace, "\n", 3⟩, ⟨.ident, "b", 4⟩] := by
    decide +kernel
  exact ⟨⟨hescaped, (open_string_last_iff hescaped rfl).1.2 rfl⟩, hcut,
    ((open_string_last_iff hcut rfl).2.1 (List.cons_ne_nil _ _)).2⟩

theorem open_string_not_last :
    ∃ t ∈ tokenize "\"a\\\nb", t.kind = .unterminatedString ∧
      t.stop < "\"a\\\nb".utf8ByteSize := by
  decide +kernel

end ScriptConsole
