import ScriptConsole.Proofs.Token.Longest

namespace ScriptConsole

/-- Nothing behind a token could belong to it, but for the backslash that an unterminated string may
stop in front of. -/
theorem munch_ends (c : Char) (cs : List Char) (h : (munch c cs).1 ≠ .unterminatedString) :
    (munch c cs).1.Ends (cs.drop (munch c cs).2) := by
  have hm := munch_cases c cs
  generalize munch c cs = m at h hm
  cases hm with
  | blank _ =>
    obtain ⟨run, rest, rfl, hrun, hrest⟩ := exists_run isTokenBlank cs
    rw [runLength_of_all _ run rest hrun hrest, List.drop_left]
    exact hrest
  | ident _ =>
    obtain ⟨run, rest, rfl, hrun, hrest⟩ := exists_run isIdentContinue cs
    rw [runLength_of_all _ run rest hrun hrest, List.drop_left]
    exact hrest
  | number hd => exact (munchNumber_cut c cs hd).2
  | raw _ =>
    rw [(munchRaw_kind cs).resolve_right h]
    trivial
  | escaped _ =>
    rw [(munchEscaped_kind cs).resolve_right h]
    trivial
  | operator ho => exact (munchOperator_cut c cs ho).2
  | @punctuation kind hp =>
    have hkind := punctuation_isPunctuation c kind hp
    cases kind <;> trivial
  | unknown _ => trivial

theorem munch_append (c : Char) (cs back : List Char)
    (h : (munch c cs).1.Ends (cs.drop (munch c cs).2 ++ back)) :
    munch c (cs ++ back) = munch c cs := by
  by_cases hu : (munch c cs).1 = .unknown
  · rw [munch_unknown c cs (cs ++ back) hu, ← munch_unknown c cs cs hu]
  · have hwhole := munch_form _ c _ _ (munch_has_form c cs hu) h
    rw [← List.append_assoc, List.take_append_drop, List.length_take,
      Nat.min_eq_left (munch_length c cs)] at hwhole
    exact hwhole

/-- None of the tokens goes on with what is behind it, when `back` is behind the last. -/
inductive Joins (back : List Char) : List Token → Prop where
  | nil : Joins back []
  | cons (t : Token) (ts : List Token) (hends : t.kind.Ends (spelling ts ++ back))
      (h : Joins back ts) : Joins back (t :: ts)

theorem tokensFrom_append (offset : Nat) (front back : List Char)
    (h : Joins back (tokensFrom offset front)) :
    tokensFrom offset (front ++ back) =
      tokensFrom offset front ++ tokensFrom (offset + byteSize front) back := by
  fun_induction tokensFrom offset front with
  | case1 => rfl
  | case2 offset c cs kind more hm text ih =>
    cases h with
    | cons _ _ hends hrest =>
      have hfront : munch c (cs ++ back) = (kind, more) := by
        rw [← hm]
        refine munch_append c cs back ?_
        rw [hm]
        rwa [spelling, tokensFrom_texts] at hends
      have hmore : more ≤ cs.length := by
        have hle := munch_length c cs
        rwa [hm] at hle
      have hsize : byteSize (c :: cs) = byteSize text + byteSize (cs.drop more) := by
        rw [← byteSize_append]
        simp [text]
      rw [List.cons_append, tokensFrom_cons, hfront]
      dsimp only
      rw [List.take_append_of_le_length hmore, List.drop_append_of_le_length hmore, ih hrest, hsize,
        ← Nat.add_assoc, List.cons_append]

/-- More text behind a token that has ended does not make it go on.  A digit might, behind a number
and a dot. -/
theorem TokenKind.Ends.append {kind : TokenKind} {c : Char} {cs : List Char}
    (h : kind.Ends (c :: cs)) (back : List Char) (hkind : kind ≠ .unterminatedString)
    (hback : c :: cs = ['.'] → ∀ d ∈ back.head?, d.isDigit = false) :
    kind.Ends (c :: cs ++ back) := by
  cases kind with
  | integer =>
    obtain ⟨hc, hdot⟩ := h
    refine ⟨hc, ?_⟩
    intro f fs hcut
    obtain ⟨rfl, hbehind⟩ := List.cons.inj hcut
    cases cs with
    | nil =>
      refine hback rfl f ?_
      rw [← List.nil_append back, show [] ++ back = _ from hbehind]
      rfl
    | cons d cs =>
      obtain ⟨hd, _⟩ := List.cons.inj hbehind
      rw [← hd]
      exact hdot d cs rfl
  | unterminatedString => exact (hkind rfl).elim
  | _ => exact h

theorem tokensFrom_mark (offset : Nat) (c : Char) (kind : TokenKind)
    (h : (c, kind) ∈ punctuationMarks) :
    tokensFrom offset [c] = [⟨kind, String.ofList [c], offset⟩] := by
  rw [tokensFrom_cons, munch_punctuation c [] kind h]
  simp [tokensFrom]

/-- A text goes on into another one at its last token only, or in front of this when it is a dot. -/
theorem joins_tokensFrom (offset : Nat) (front back : List Char)
    (hclosed : ∀ t ∈ tokensFrom offset front, t.kind ≠ .unterminatedString)
    (hlast : ∀ t ∈ (tokensFrom offset front).getLast?, t.kind.Ends back ∧
      (t.kind = .dot → ∀ d ∈ back.head?, d.isDigit = false)) :
    Joins back (tokensFrom offset front) := by
  fun_induction tokensFrom offset front with
  | case1 => exact .nil
  | case2 offset c cs kind more hm text ih =>
    obtain ⟨hkind, hrest⟩ := List.forall_mem_cons.1 hclosed
    have hends : kind.Ends (cs.drop more) := by
      have hends := munch_ends c cs (by rw [hm]; exact hkind)
      rwa [hm] at hends
    have hspelling : spelling (tokensFrom (offset + byteSize text) (cs.drop more)) = cs.drop more :=
      tokensFrom_texts _ _
    refine .cons _ _ ?_ ?_
    · rw [hspelling]
      cases hdrop : cs.drop more with
      | nil =>
        rw [hdrop, tokensFrom] at hlast
        exact (hlast _ rfl).1
      | cons d ds =>
        rw [hdrop] at hends
        refine hends.append back hkind ?_
        intro hdot
        rw [hdrop, hdot, tokensFrom_mark _ '.' .dot (by decide)] at hlast
        exact (hlast _ rfl).2 rfl
    · refine ih hrest ?_
      intro t ht
      refine hlast t ?_
      rw [List.getLast?_cons, Option.mem_def.1 ht]
      rfl

/-- Texts side by side have the tokens of both, when the first does not go on into the second. -/
theorem tokenize_append (front back : String)
    (hclosed : ∀ t ∈ tokenize front, t.kind ≠ .unterminatedString)
    (hlast : ∀ t ∈ (tokenize front).getLast?, t.kind.Ends back.toList ∧
      (t.kind = .dot → ∀ d ∈ back.toList.head?, d.isDigit = false)) :
    tokenize (front ++ back) =
      tokenize front ++ (tokenize back).map (Token.shift front.utf8ByteSize) := by
  have hjoins := joins_tokensFrom 0 front.toList back.toList hclosed hlast
  rw [tokenize, String.toList_append, tokensFrom_append 0 _ _ hjoins, Nat.zero_add, byteSize_toList,
    tokensFrom_eq_map_tokenize front.utf8ByteSize]
  rfl

theorem tokenize_semicolon (text : String)
    (hclosed : ∀ t ∈ tokenize text, t.kind ≠ .unterminatedString) :
    tokenize (text ++ ";") = tokenize text ++ [⟨.semicolon, ";", byteSize text.toList⟩] := by
  have hsign : tokenize ";" = [⟨.semicolon, ";", 0⟩] :=
    tokensFrom_mark 0 ';' .semicolon (by decide)
  rw [tokenize_append text ";" hclosed, hsign, byteSize_toList]
  · rfl
  · intro t ht
    have hkind := hclosed t (List.mem_of_getLast? ht)
    generalize t.kind = kind at hkind
    refine ⟨?_, by simp⟩
    cases kind <;> first | exact (hkind rfl).elim | simp [TokenKind.Ends] <;> decide

theorem filter_run (offset : Nat) (run rest : List Char) (hrun : ∀ c ∈ run, isTokenBlank c = true)
    (hrest : TokenKind.whitespace.Ends rest) :
    (tokensFrom offset (run ++ rest)).filter (·.kind ≠ .whitespace) =
      (tokensFrom (offset + byteSize run) rest).filter (·.kind ≠ .whitespace) := by
  by_cases hne : run = []
  · subst hne
    rfl
  · rw [tokensFrom_form offset .whitespace run rest (.whitespace run hne hrun) hrest,
      List.filter_cons_of_neg (by simp)]

theorem filter_blanks (offset : Nat) (run rest : List Char)
    (hrun : ∀ c ∈ run, isTokenBlank c = true) :
    (tokensFrom offset (run ++ rest)).filter (·.kind ≠ .whitespace) =
      (tokensFrom (offset + byteSize run) rest).filter (·.kind ≠ .whitespace) := by
  -- the text may begin with blanks of its own
  obtain ⟨more, rest, rfl, hmore, hends⟩ := exists_run isTokenBlank rest
  have hall : ∀ c ∈ run ++ more, isTokenBlank c = true := List.forall_mem_append.2 ⟨hrun, hmore⟩
  rw [← List.append_assoc, filter_run offset _ rest hall hends,
    filter_run _ more rest hmore hends, byteSize_append, Nat.add_assoc]

end ScriptConsole
