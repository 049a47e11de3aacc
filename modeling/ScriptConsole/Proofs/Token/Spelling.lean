import ScriptConsole.Expr.Literal
import ScriptConsole.Proofs.Token.Cut

namespace ScriptConsole

/-- The ways in which a token can begin with `c`. -/
inductive Munched (c : Char) (cs : List Char) : Munch → Prop where
  | blank (h : isTokenBlank c = true) : Munched c cs (.whitespace, runLength isTokenBlank cs)
  | ident (h : isIdentStart c = true) : Munched c cs (.ident, runLength isIdentContinue cs)
  | number (h : c.isDigit = true) : Munched c cs (munchNumber cs)
  | raw (h : c = '\'') : Munched c cs (munchRaw cs)
  | escaped (h : c = '"') : Munched c cs (munchEscaped cs)
  | operator (h : isOperatorChar c = true) : Munched c cs (munchOperator c cs)
  | punctuation {kind : TokenKind} (h : punctuation? c = some kind) : Munched c cs (kind, 0)
  | unknown (h : punctuation? c = none) : Munched c cs (.unknown, 0)

theorem munch_cases (c : Char) (cs : List Char) : Munched c cs (munch c cs) := by
  unfold munch
  split_ifs with hb hi hd hr hq ho
  · exact .blank hb
  · exact .ident hi
  · exact .number hd
  · exact .raw hr
  · exact .escaped hq
  · exact .operator ho
  · split
    · next kind hp => exact .punctuation hp
    · next hp => exact .unknown hp

theorem munchNumber_kind (cs : List Char) :
    (munchNumber cs).1 = .integer ∨ (munchNumber cs).1 = .decimal := by
  unfold munchNumber
  dsimp only
  split
  · split
    · exact .inl rfl
    · exact .inr rfl
  · exact .inl rfl

theorem munchRaw_kind (cs : List Char) :
    (munchRaw cs).1 = .string ∨ (munchRaw cs).1 = .unterminatedString := by
  unfold munchRaw
  dsimp only
  split
  · exact .inl rfl
  · exact .inr rfl

theorem munchEscaped_kind (cs : List Char) :
    (munchEscaped cs).1 = .string ∨ (munchEscaped cs).1 = .unterminatedString := by
  fun_induction munchEscaped cs <;> simp_all [Munch.extend]

theorem munchOperator_kind (c : Char) (cs : List Char) :
    (munchOperator c cs).1 = .assign ∨ (munchOperator c cs).1 = .operator := by
  unfold munchOperator
  split
  · split_ifs
    · exact .inl rfl
    · exact .inr rfl
  · exact .inr rfl

/-- Kinds of tokens of one character that belong to no other kind. -/
def TokenKind.isPunctuation : TokenKind → Bool
  | lParen | rParen | lBracket | rBracket | lBrace | rBrace | dot | comma | semicolon => true
  | _ => false

theorem punctuation_isPunctuation (c : Char) (kind : TokenKind) (h : punctuation? c = some kind) :
    kind.isPunctuation = true := by
  unfold punctuation? at h
  split at h <;> cases h <;> rfl

theorem punctuation_injective (c d : Char) (kind : TokenKind) (hc : punctuation? c = some kind)
    (hd : punctuation? d = some kind) : c = d := by
  unfold punctuation? at hc
  split at hc <;> cases hc
  all_goals
    unfold punctuation? at hd
    split at hd <;> cases hd
    rfl

theorem munched_punctuation {c : Char} {cs : List Char} {m : Munch} (hm : Munched c cs m)
    (h : m.1.isPunctuation = true) : punctuation? c = some m.1 ∧ m.2 = 0 := by
  cases hm with
  | blank _ => cases h
  | ident _ => cases h
  | number _ => rcases munchNumber_kind cs with hk | hk <;> rw [hk] at h <;> cases h
  | raw _ => rcases munchRaw_kind cs with hk | hk <;> rw [hk] at h <;> cases h
  | escaped _ => rcases munchEscaped_kind cs with hk | hk <;> rw [hk] at h <;> cases h
  | operator _ => rcases munchOperator_kind c cs with hk | hk <;> rw [hk] at h <;> cases h
  | punctuation hp => exact ⟨hp, rfl⟩
  | unknown _ => cases h

theorem munched_integer {c : Char} {cs : List Char} {m : Munch} (hm : Munched c cs m)
    (h : m.1 = .integer) : c.isDigit = true := by
  cases hm with
  | blank _ => cases h
  | ident _ => cases h
  | number hd => exact hd
  | raw _ => rcases munchRaw_kind cs with hk | hk <;> rw [hk] at h <;> cases h
  | escaped _ => rcases munchEscaped_kind cs with hk | hk <;> rw [hk] at h <;> cases h
  | operator _ => rcases munchOperator_kind c cs with hk | hk <;> rw [hk] at h <;> cases h
  | punctuation hp =>
    subst h
    cases punctuation_isPunctuation c _ hp
  | unknown _ => cases h

/-- A string, closed or not, begins with its quote. -/
theorem munched_quoted {c : Char} {cs : List Char} {m : Munch} (hm : Munched c cs m)
    (h : m.1 = .string ∨ m.1 = .unterminatedString) :
    c = '\'' ∧ m = munchRaw cs ∨ c = '"' ∧ m = munchEscaped cs := by
  cases hm with
  | blank _ => rcases h with h | h <;> cases h
  | ident _ => rcases h with h | h <;> cases h
  | number _ =>
    rcases munchNumber_kind cs with hk | hk <;> rw [hk] at h <;> rcases h with h | h <;> cases h
  | raw hc => exact .inl ⟨hc, rfl⟩
  | escaped hc => exact .inr ⟨hc, rfl⟩
  | operator _ =>
    rcases munchOperator_kind c cs with hk | hk <;> rw [hk] at h <;> rcases h with h | h <;> cases h
  | punctuation hp => rcases h with rfl | rfl <;> cases punctuation_isPunctuation c _ hp
  | unknown _ => rcases h with h | h <;> cases h

theorem mem_tokensFrom (offset : Nat) (cs : List Char) (t : Token) (h : t ∈ tokensFrom offset cs) :
    ∃ d ds m, Munched d ds m ∧ t.kind = m.1 ∧ t.text = String.ofList (d :: ds.take m.2) := by
  fun_induction tokensFrom offset cs with
  | case1 => cases h
  | case2 offset c cs kind more hm text ih =>
    rcases List.mem_cons.1 h with rfl | h
    · exact ⟨c, cs, munch c cs, munch_cases c cs, by rw [hm], by rw [hm]⟩
    · exact ih h

theorem text_punctuation (line : String) (t : Token) (ht : t ∈ tokenize line) (c : Char)
    (h : punctuation? c = some t.kind) : t.text = String.ofList [c] := by
  obtain ⟨d, ds, m, hm, hk, htext⟩ := mem_tokensFrom 0 line.toList t ht
  have hp := punctuation_isPunctuation c _ h
  rw [hk] at hp h
  obtain ⟨hd, hz⟩ := munched_punctuation hm hp
  rw [htext, hz, punctuation_injective c d _ h hd, List.take_zero]

theorem unquote_integer (line : String) (t : Token) (ht : t ∈ tokenize line)
    (h : t.kind = .integer) : unquote t.text = none := by
  obtain ⟨d, ds, m, hm, hk, htext⟩ := mem_tokensFrom 0 line.toList t ht
  have hd := munched_integer hm (hk.symm.trans h)
  have hr : d ≠ '\'' := fun he => by rw [he] at hd; cases hd
  have hq : d ≠ '"' := fun he => by rw [he] at hd; cases hd
  rw [htext, unquote, String.toList_ofList]
  split
  · next he => exact absurd (List.cons.inj he).1 hr
  · next he => exact absurd (List.cons.inj he).1 hq
  · rfl

theorem unescape_plain (c : Char) (cs : List Char) (h : c ≠ '\\') :
    unescape (c :: cs) = (unescape cs).map (c :: ·) := by
  rw [unescape]
  · exact fun hc _ => h hc
  · exact fun _ _ hc _ => h hc

/-- What stands in front of the closing quote can be decoded. -/
theorem munchEscaped_string (cs : List Char) (h : (munchEscaped cs).1 = .string) :
    ∃ inside text, cs.take (munchEscaped cs).2 = inside ++ ['"'] ∧ unescape inside = some text := by
  fun_induction munchEscaped cs with
  | case1 => cases h
  | case2 cs => exact ⟨[], [], by simp, rfl⟩
  | case3 => cases h
  | case4 => cases h
  | case5 c cs hc ih =>
    obtain ⟨inside, text, htake, htext⟩ := ih h
    refine ⟨'\\' :: c :: inside, escaped c :: text, ?_, ?_⟩
    · simp [Munch.extend, htake]
    · simp [unescape, htext]
  | case6 c cs hq hb hb' ih =>
    obtain ⟨inside, text, htake, htext⟩ := ih h
    have hne : c ≠ '\\' := by
      intro hc
      cases cs with
      | nil => exact hb hc rfl
      | cons d ds => exact hb' d ds hc rfl
    refine ⟨c :: inside, c :: text, ?_, ?_⟩
    · simp [Munch.extend, htake]
    · rw [unescape_plain c inside hne, htext]
      rfl

theorem munchRaw_string (cs : List Char) (h : (munchRaw cs).1 = .string) :
    ∃ inside, cs.take (munchRaw cs).2 = inside ++ ['\''] := by
  have hcut := List.takeWhile_append_dropWhile (p := (· ≠ '\'')) (l := cs)
  cases hd : cs.dropWhile (· ≠ '\'') with
  | nil =>
    rw [hd, List.append_nil] at hcut
    have hlen : ¬ runLength (· ≠ '\'') cs < cs.length := by rw [runLength, hcut]; omega
    rw [munchRaw, if_neg hlen] at h
    cases h
  | cons d rest =>
    have hq := List.head?_dropWhile_not (· ≠ '\'') cs
    rw [hd] at hq hcut
    have hdq : d = '\'' := by simpa using hq
    have hlen : runLength (· ≠ '\'') cs < cs.length := by
      have hl := congrArg List.length hcut
      rw [List.length_append, List.length_cons] at hl
      rw [runLength]
      omega
    refine ⟨cs.takeWhile (· ≠ '\''), ?_⟩
    rw [munchRaw, if_pos hlen]
    calc cs.take (runLength (· ≠ '\'') cs + 1)
        = (cs.takeWhile (· ≠ '\'') ++ d :: rest).take (runLength (· ≠ '\'') cs + 1) := by rw [hcut]
      _ = cs.takeWhile (· ≠ '\'') ++ ['\''] := by
        rw [runLength, List.take_length_add_append, hdq]
        rfl

/-- Every string can be decoded. -/
theorem unquote_string (line : String) (t : Token) (ht : t ∈ tokenize line)
    (h : t.kind = .string) : ∃ text, unquote t.text = some text := by
  obtain ⟨d, ds, m, hm, hk, htext⟩ := mem_tokensFrom 0 line.toList t ht
  have hs := hk.symm.trans h
  rcases munched_quoted hm (.inl hs) with ⟨rfl, rfl⟩ | ⟨rfl, rfl⟩
  · obtain ⟨inside, htake⟩ := munchRaw_string ds hs
    exact ⟨String.ofList inside, by rw [htext, htake]; exact unquote_raw inside⟩
  · obtain ⟨inside, text, htake, hdec⟩ := munchEscaped_string ds hs
    refine ⟨String.ofList text, ?_⟩
    rw [htext, htake]
    refine (unquote_escaped inside).trans ?_
    rw [hdec]
    rfl

end ScriptConsole
