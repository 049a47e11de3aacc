import ScriptConsole.Proofs.Token.Form

namespace ScriptConsole

theorem exists_run (p : Char → Bool) (cs : List Char) :
    ∃ run rest, cs = run ++ rest ∧ (∀ c ∈ run, p c = true) ∧ ∀ d ∈ rest.head?, p d = false := by
  refine ⟨cs.takeWhile p, cs.dropWhile p, List.takeWhile_append_dropWhile.symm, ?_, ?_⟩
  · exact List.all_eq_true.1 List.all_takeWhile
  · intro d hd
    have hnot := List.head?_dropWhile_not p cs
    rw [Option.mem_def.1 hd] at hnot
    simpa using hnot

/-- A number has the form of its kind, and ends where no longer one begins. -/
theorem munchNumber_cut (c : Char) (cs : List Char) (hc : c.isDigit = true) :
    (munchNumber cs).1.Form (c :: cs.take (munchNumber cs).2) ∧
      (munchNumber cs).1.Ends (cs.drop (munchNumber cs).2) := by
  obtain ⟨ds, rest, rfl, hds, hrest⟩ := exists_run Char.isDigit cs
  have hdigits : ∀ d ∈ c :: ds, d.isDigit = true := List.forall_mem_cons.2 ⟨hc, hds⟩
  by_cases hends : TokenKind.integer.Ends rest
  · rw [munchNumber_integer ds rest hds hends, List.take_left, List.drop_left]
    exact ⟨.integer _ (List.cons_ne_nil _ _) hdigits, hends⟩
  · obtain ⟨f, fs, rfl, hf⟩ : ∃ f fs, rest = '.' :: f :: fs ∧ f.isDigit = true := by
      simpa [TokenKind.Ends] using fun h => hends ⟨hrest, h⟩
    obtain ⟨fraction, rest, hcut, hfs, hrest⟩ := exists_run Char.isDigit (f :: fs)
    have hne : fraction ≠ [] := by
      rintro rfl
      simp [hrest f (by rw [← List.nil_append rest, ← hcut]; rfl)] at hf
    have htext : ds ++ '.' :: (fraction ++ rest) = (ds ++ '.' :: fraction) ++ rest := by simp
    have hlength : (ds ++ '.' :: fraction).length = ds.length + 1 + fraction.length := by
      simp
      omega
    rw [hcut, munchNumber_decimal ds fraction rest hne hds hfs hrest, htext,
      List.take_left' hlength, List.drop_left' hlength]
    exact ⟨.decimal (c :: ds) fraction (List.cons_ne_nil _ _) hne hdigits hfs, hrest⟩

theorem munchRaw_form (cs : List Char) :
    (munchRaw cs).1.Form ('\'' :: cs.take (munchRaw cs).2) := by
  obtain ⟨inside, rest, rfl, hin, hrest⟩ := exists_run (· ≠ '\'') cs
  have hnot : '\'' ∉ inside := fun hmem => by simpa using hin _ hmem
  cases rest with
  | nil =>
    rw [List.append_nil, munchRaw_open inside hnot, List.take_length]
    exact .openRaw inside hnot
  | cons d rest =>
    obtain rfl : d = '\'' := by simpa using hrest d rfl
    rw [munchRaw_closed inside rest hnot, List.take_length_add_append]
    exact .raw inside hnot

theorem exists_escapedText (cs : List Char) :
    ∃ inside rest, cs = inside ++ rest ∧ EscapedText inside ∧
      (munchEscaped rest = (.unterminatedString, 0) ∨ ∃ rest', rest = '"' :: rest') := by
  fun_induction munchEscaped cs with
  | case1 => exact ⟨[], [], rfl, .nil, .inl rfl⟩
  | case2 cs => exact ⟨[], _, rfl, .nil, .inr ⟨cs, rfl⟩⟩
  | case3 => exact ⟨[], ['\\'], rfl, .nil, .inl rfl⟩
  | case4 cs => exact ⟨[], '\\' :: '\n' :: cs, rfl, .nil, .inl rfl⟩
  | case5 c cs hc ih =>
    obtain ⟨inside, rest, rfl, hin, hrest⟩ := ih
    exact ⟨_, rest, rfl, .pair c inside hc hin, hrest⟩
  | case6 c cs hq hb hb' ih =>
    obtain ⟨inside, rest, rfl, hin, hrest⟩ := ih
    have hne : c ≠ '\\' := by
      intro hc
      cases h : inside ++ rest with
      | nil => exact hb hc h
      | cons d ds => exact hb' d ds hc h
    exact ⟨_, rest, rfl, .plain c inside hq hne hin, hrest⟩

theorem munchEscaped_form (cs : List Char) :
    (munchEscaped cs).1.Form ('"' :: cs.take (munchEscaped cs).2) := by
  obtain ⟨inside, rest, rfl, hin, hrest | ⟨rest, rfl⟩⟩ := exists_escapedText cs
  · rw [munchEscaped_append inside rest hin, hrest, Munch.extend, Nat.zero_add, List.take_left]
    exact .openEscaped inside hin
  · rw [munchEscaped_append inside _ hin, munchEscaped, Munch.extend, Nat.add_comm 1,
      List.take_length_add_append]
    exact .escaped inside hin

theorem munchOperator_cut (c : Char) (cs : List Char) (hc : isOperatorChar c = true) :
    (munchOperator c cs).1.Form (c :: cs.take (munchOperator c cs).2) ∧
      (munchOperator c cs).1.Ends (cs.drop (munchOperator c cs).2) := by
  obtain ⟨run, rest, rfl, hrun, hrest⟩ := exists_run isOperatorChar cs
  have hall : ∀ d ∈ c :: run, isOperatorChar d = true := List.forall_mem_cons.2 ⟨hc, hrun⟩
  by_cases hlone : c :: run = ['=']
  · cases hlone
    rw [List.nil_append, munchOperator_lone rest hrest]
    exact ⟨.assign, hrest⟩
  · rw [munchOperator_run c run rest hrun hlone hrest, List.take_left, List.drop_left]
    exact ⟨.operator _ (List.cons_ne_nil _ _) hall hlone, hrest⟩

/-- What stands at the front of a text has the form of its kind. -/
theorem munch_has_form (c : Char) (cs : List Char) (h : (munch c cs).1 ≠ .unknown) :
    (munch c cs).1.Form (c :: cs.take (munch c cs).2) := by
  have hm := munch_cases c cs
  generalize munch c cs = m at h hm
  cases hm with
  | blank hb =>
    obtain ⟨run, rest, rfl, hrun, hrest⟩ := exists_run isTokenBlank cs
    rw [runLength_of_all _ run rest hrun hrest, List.take_left]
    exact .whitespace _ (List.cons_ne_nil _ _) (List.forall_mem_cons.2 ⟨hb, hrun⟩)
  | ident hi =>
    obtain ⟨run, rest, rfl, hrun, hrest⟩ := exists_run isIdentContinue cs
    rw [runLength_of_all _ run rest hrun hrest, List.take_left]
    exact .ident c run hi hrun
  | number hd => exact (munchNumber_cut c cs hd).1
  | raw hr =>
    subst hr
    exact munchRaw_form cs
  | escaped hq =>
    subst hq
    exact munchEscaped_form cs
  | operator ho => exact (munchOperator_cut c cs ho).1
  | punctuation hp => exact .punctuation c _ ((punctuation?_eq_some c _).1 hp)
  | unknown _ => exact absurd rfl h

theorem munch_unknown (c : Char) (cs ds : List Char) (h : (munch c cs).1 = .unknown) :
    munch c ds = (.unknown, 0) := by
  unfold munch at h ⊢
  split_ifs at h ⊢
  · rcases munchNumber_kind cs with hk | hk <;> rw [hk] at h <;> cases h
  · rcases munchRaw_kind cs with hk | hk <;> rw [hk] at h <;> cases h
  · rcases munchEscaped_kind cs with hk | hk <;> rw [hk] at h <;> cases h
  · rcases munchOperator_kind c cs with hk | hk <;> rw [hk] at h <;> cases h
  · split at h
    · next kind hp =>
      subst h
      cases punctuation_isPunctuation c _ hp
    · rfl

theorem munch_unknown_length (c : Char) (cs : List Char) (h : (munch c cs).1 = .unknown) :
    (munch c cs).2 = 0 := by
  rw [munch_unknown c cs cs h]

theorem form_of_mem_tokenize {line : String} {t : Token} (ht : t ∈ tokenize line)
    (hkind : t.kind ≠ .unknown) : t.kind.Form t.text.toList := by
  obtain ⟨before, after, hcut⟩ := List.append_of_mem ht
  obtain ⟨c, rest, _, rfl⟩ := tokensFrom_token 0 line.toList before after t hcut
  rw [String.toList_ofList]
  exact munch_has_form c rest hkind

theorem isIdentifier_of_ident {line : String} {t : Token} (ht : t ∈ tokenize line)
    (hkind : t.kind = .ident) : isIdentifier t.text = true := by
  have hform := form_of_mem_tokenize ht (by simp [hkind])
  rw [hkind] at hform
  exact (isIdentifier_iff_form t.text).2 hform

theorem tokenize_identifier {name : String} (h : isIdentifier name = true) :
    tokenize name = [⟨.ident, name, 0⟩] := by
  have htokens := tokensFrom_form 0 .ident name.toList [] ((isIdentifier_iff_form name).1 h)
    (TokenKind.ends_nil _)
  rw [List.append_nil, tokensFrom, String.ofList_toList] at htokens
  exact htokens

/-- The identifiers are the texts that are one token, a name.  So every name in a line is one. -/
theorem isIdentifier_iff_token (text : String) :
    (isIdentifier text = true ↔
      ∃ t, tokenize text = [t] ∧ t.kind = .ident ∧ t.text = text) ∧
      ∀ t ∈ tokenize text, t.kind = .ident → isIdentifier t.text = true := by
  refine ⟨⟨?_, ?_⟩, fun t => isIdentifier_of_ident⟩
  · intro h
    exact ⟨_, tokenize_identifier h, rfl, rfl⟩
  · rintro ⟨t, htokens, hkind, htext⟩
    have hmem : t ∈ tokenize text := by simp [htokens]
    rw [← htext]
    exact isIdentifier_of_ident hmem hkind

/-- A digit is part of a name behind its first character, and begins none. -/
theorem isIdentifier_iff_token_mixed :
    ⟨.ident, "ж2", 6⟩ ∈ tokenize "$é_1.ж2" ∧ isIdentifier "ж2" = true ∧
      isIdentifier "2ж" = false := by
  have hname : ⟨.ident, "ж2", 6⟩ ∈ tokenize "$é_1.ж2" := by decide +kernel
  refine ⟨hname, (isIdentifier_iff_token "$é_1.ж2").2 _ hname rfl, ?_⟩
  rw [Bool.eq_false_iff]
  intro h
  obtain ⟨t, htokens, hkind, _⟩ := (isIdentifier_iff_token "2ж").1.1 h
  have hcut : tokenize "2ж" = [⟨.integer, "2", 0⟩, ⟨.ident, "ж", 1⟩] := by decide +kernel
  rw [hcut] at htokens
  cases htokens

/-- Nothing at the front of a text that has some form is longer than what is munched there. -/
theorem form_le_munch (c : Char) (cs p : List Char) (kind : TokenKind) (hp : p <+: cs)
    (h : kind.Form (c :: p)) : (munch c cs).1 ≠ .unknown ∧ p.length ≤ (munch c cs).2 := by
  have hwhole := munch_form kind c p [] h kind.ends_nil
  rw [List.append_nil] at hwhole
  by_cases hle : (munch c cs).2 ≤ p.length
  · -- the token at the front would be the same in front of nothing
    have hcut := munch_take c cs p.length hle
    rw [← List.prefix_iff_eq_take.1 hp, hwhole] at hcut
    rw [← hcut]
    exact ⟨h.ne_unknown, Nat.le_refl _⟩
  · refine ⟨fun hu => ?_, by omega⟩
    have hz := munch_unknown_length c cs hu
    omega

/-- `text` is the token of kind `kind` at the front of `cs`: the longest text of any form, or one
character where no form begins. -/
inductive Leads : List Char → TokenKind → List Char → Prop where
  | longest (cs text : List Char) (kind : TokenKind) (hfront : text <+: cs) (hform : kind.Form text)
      (hmax : ∀ (k : TokenKind) (p : List Char), p <+: cs → k.Form p → p.length ≤ text.length)
      (honly : ∀ k : TokenKind, k.Form text → k = kind) : Leads cs kind text
  | unknown (c : Char) (cs : List Char)
      (hnone : ∀ (k : TokenKind) (p : List Char), p <+: c :: cs → ¬ k.Form p) :
      Leads (c :: cs) .unknown [c]

theorem munch_leads (c : Char) (cs : List Char) :
    Leads (c :: cs) (munch c cs).1 (c :: cs.take (munch c cs).2) := by
  have hlongest : ∀ (k : TokenKind) (p : List Char), p <+: c :: cs → k.Form p →
      (munch c cs).1 ≠ .unknown ∧ p.length ≤ (c :: cs.take (munch c cs).2).length := by
    intro k p hp hk
    cases p with
    | nil => exact absurd rfl hk.ne_nil
    | cons d p =>
      obtain ⟨rfl, htail⟩ := List.cons_prefix_cons.1 hp
      obtain ⟨hne, hle⟩ := form_le_munch d cs p k htail hk
      refine ⟨hne, ?_⟩
      simp only [List.length_cons, List.length_take]
      have := munch_length d cs
      omega
  by_cases hu : (munch c cs).1 = .unknown
  · rw [hu, munch_unknown_length c cs hu]
    exact .unknown c cs fun k p hp hk => (hlongest k p hp hk).1 hu
  · have hform := munch_has_form c cs hu
    exact .longest _ _ _ (List.cons_prefix_cons.2 ⟨rfl, List.take_prefix _ _⟩) hform
      (fun k p hp hk => (hlongest k p hp hk).2) fun k hk => hk.unique hform

theorem join_texts (ts : List Token) :
    String.join (ts.map (·.text)) = String.ofList (spelling ts) := by
  apply String.toList_injective
  rw [String.toList_join, List.flatMap_map, String.toList_ofList]
  rfl

/-- The tokens of a line make up the line.  Each is not empty, stands where the tokens before it
end, and is the longest token at the front of the text that is left. -/
theorem tokenize_longest (line : String) :
    String.join ((tokenize line).map (·.text)) = line ∧
      ∀ before t after, tokenize line = before ++ t :: after →
        t.text ≠ "" ∧ t.offset = (String.join (before.map (·.text))).utf8ByteSize ∧
          Leads (spelling (t :: after)) t.kind t.text.toList := by
  constructor
  · rw [join_texts]
    apply String.toList_injective
    rw [String.toList_ofList]
    exact tokenize_texts line
  · intro before t after h
    obtain ⟨c, rest, hs, ht⟩ := tokensFrom_token 0 line.toList before after t h
    rw [hs, ht, String.toList_ofList, Nat.zero_add, join_texts, utf8ByteSize_ofList]
    refine ⟨?_, rfl, munch_leads c rest⟩
    intro hempty
    simpa using congrArg String.toList hempty

theorem tokenize_longest_number :
    tokenize "1.5.x" = [⟨.decimal, "1.5", 0⟩] ++ ⟨.dot, ".", 3⟩ :: [⟨.ident, "x", 4⟩] ∧
      "." ≠ "" ∧ 3 = "1.5".utf8ByteSize ∧ Leads ".x".toList .dot ['.'] := by
  have h : tokenize "1.5.x" = [⟨.decimal, "1.5", 0⟩] ++ ⟨.dot, ".", 3⟩ :: [⟨.ident, "x", 4⟩] := by
    decide +kernel
  obtain ⟨hne, hoffset, hleads⟩ := (tokenize_longest "1.5.x").2 _ _ _ h
  exact ⟨h, hne, hoffset, hleads⟩

end ScriptConsole
