import Mathlib.Tactic.SplitIfs
import ScriptConsole.Token.Lexer

namespace ScriptConsole

theorem runLength_take (p : Char → Bool) (cs : List Char) (n : Nat) :
    runLength p (cs.take n) = min n (runLength p cs) := by
  rw [runLength, ← List.take_takeWhile, List.length_take]
  rfl

theorem munchNumber_whole (cs : List Char) : runLength Char.isDigit cs ≤ (munchNumber cs).2 := by
  unfold munchNumber
  dsimp only
  split
  · split <;> dsimp only <;> omega
  · exact Nat.le_refl _

theorem munchNumber_take (cs : List Char) (n : Nat) (h : (munchNumber cs).2 ≤ n) :
    munchNumber (cs.take n) = munchNumber cs := by
  have hw := munchNumber_whole cs
  have hr : runLength Char.isDigit (cs.take n) = runLength Char.isDigit cs := by
    rw [runLength_take]
    omega
  unfold munchNumber at h ⊢
  simp only [hr, List.drop_take]
  cases hd : cs.drop (runLength Char.isDigit cs) with
  | nil => simp
  | cons d rest =>
    by_cases hdot : d = '.'
    · subst hdot
      simp only [hd] at h
      cases hk : n - runLength Char.isDigit cs with
      | zero =>
        cases hf : runLength Char.isDigit rest with
        | zero => simp [hf]
        | succ f =>
          simp only [hf] at h
          omega
      | succ k =>
        simp only [List.take_succ_cons, runLength_take]
        cases hf : runLength Char.isDigit rest with
        | zero => simp
        | succ f =>
          simp only [hf] at h
          have hm : min k (f + 1) = f + 1 := by omega
          rw [hm]
    · cases n - runLength Char.isDigit cs <;> simp [hdot]

theorem munchRaw_take (cs : List Char) (n : Nat) (h : (munchRaw cs).2 ≤ n) :
    munchRaw (cs.take n) = munchRaw cs := by
  have hle := runLength_le (· ≠ '\'') cs
  unfold munchRaw at h ⊢
  simp only [runLength_take, List.length_take] at h ⊢
  split at h
  · next hlt =>
    have hm : min n (runLength (· ≠ '\'') cs) = runLength (· ≠ '\'') cs := by omega
    rw [hm, if_pos (by omega), if_pos hlt]
  · next hge =>
    have hm : min n (runLength (· ≠ '\'') cs) = runLength (· ≠ '\'') cs := by omega
    rw [hm, if_neg (by omega), if_neg hge]

theorem munchEscaped_take (cs : List Char) (n : Nat) (h : (munchEscaped cs).2 ≤ n) :
    munchEscaped (cs.take n) = munchEscaped cs := by
  fun_induction munchEscaped cs generalizing n with
  | case1 => simp [munchEscaped]
  | case2 cs =>
    obtain ⟨k, rfl⟩ : ∃ k, n = k + 1 := ⟨n - 1, by omega⟩
    simp [munchEscaped]
  | case3 => cases n <;> simp [munchEscaped]
  | case4 cs =>
    -- cut behind the backslash, or in front of it, the string is unterminated all the same
    match n with
    | 0 | 1 | n + 2 => simp [munchEscaped]
  | case5 c cs hc ih =>
    simp only [Munch.extend] at h
    obtain ⟨k, rfl⟩ : ∃ k, n = k + 2 := ⟨n - 2, by omega⟩
    simp [munchEscaped, hc, ih k (by omega)]
  | case6 c cs hq hb hb' ih =>
    simp only [Munch.extend] at h
    obtain ⟨k, rfl⟩ : ∃ k, n = k + 1 := ⟨n - 1, by omega⟩
    have hne : c ≠ '\\' := by
      intro hc
      cases cs with
      | nil => exact hb hc rfl
      | cons d ds => exact hb' d ds hc rfl
    rw [List.take_succ_cons, munchEscaped, ih k (by omega)]
    · exact hq
    · exact fun hc _ => hne hc
    · exact fun _ _ hc _ => hne hc

theorem munchOperator_take (c : Char) (cs : List Char) (n : Nat) (h : (munchOperator c cs).2 ≤ n) :
    munchOperator c (cs.take n) = munchOperator c cs := by
  have hr : runLength isOperatorChar (cs.take n) = runLength isOperatorChar cs := by
    rw [runLength_take]
    unfold munchOperator at h
    split at h
    · next hz => omega
    · exact Nat.min_eq_right h
  rw [munchOperator, hr]
  rfl

/-- The token at the front of a text is the same when the text is cut anywhere behind it. -/
theorem munch_take (c : Char) (cs : List Char) (n : Nat) (h : (munch c cs).2 ≤ n) :
    munch c (cs.take n) = munch c cs := by
  unfold munch at h ⊢
  split_ifs at h ⊢
  · rw [runLength_take, Nat.min_eq_right h]
  · rw [runLength_take, Nat.min_eq_right h]
  · exact munchNumber_take cs n h
  · exact munchRaw_take cs n h
  · exact munchEscaped_take cs n h
  · exact munchOperator_take c cs n h
  · rfl

theorem munchNumber_length (cs : List Char) : (munchNumber cs).2 ≤ cs.length := by
  have hle := runLength_le Char.isDigit cs
  unfold munchNumber
  dsimp only
  split
  · next rest hd =>
    have hlen := congrArg List.length hd
    have hrest := runLength_le Char.isDigit rest
    simp only [List.length_drop, List.length_cons] at hlen
    split <;> dsimp only <;> omega
  · exact hle

theorem munchEscaped_length (cs : List Char) : (munchEscaped cs).2 ≤ cs.length := by
  fun_induction munchEscaped cs <;> simp only [Munch.extend, List.length_cons, List.length_nil]
  all_goals omega

theorem munch_length (c : Char) (cs : List Char) : (munch c cs).2 ≤ cs.length := by
  unfold munch
  split_ifs
  · exact runLength_le isTokenBlank cs
  · exact runLength_le isIdentContinue cs
  · exact munchNumber_length cs
  · unfold munchRaw
    dsimp only
    have hle := runLength_le (· ≠ '\'') cs
    split <;> dsimp only <;> omega
  · exact munchEscaped_length cs
  · unfold munchOperator
    have hle := runLength_le isOperatorChar cs
    split <;> dsimp only <;> omega
  · split <;> exact Nat.zero_le _

theorem tokensFrom_cons (offset : Nat) (c : Char) (cs : List Char) :
    tokensFrom offset (c :: cs) =
      ⟨(munch c cs).1, String.ofList (c :: cs.take (munch c cs).2), offset⟩ ::
        tokensFrom (offset + byteSize (c :: cs.take (munch c cs).2))
          (cs.drop (munch c cs).2) := by
  rw [tokensFrom]

/-- The characters of consecutive tokens. -/
def spelling (ts : List Token) : List Char := ts.flatMap (·.text.toList)

@[simp] theorem spelling_nil : spelling [] = [] := rfl

@[simp] theorem spelling_cons (t : Token) (ts : List Token) :
    spelling (t :: ts) = t.text.toList ++ spelling ts := rfl

@[simp] theorem spelling_append (xs ys : List Token) :
    spelling (xs ++ ys) = spelling xs ++ spelling ys := List.flatMap_append

theorem spelling_tokenize (text : String) : spelling (tokenize text) = text.toList :=
  tokenize_texts text

theorem byteSize_tokenize (text : String) :
    byteSize (spelling (tokenize text)) = text.utf8ByteSize := by
  rw [spelling_tokenize, byteSize_toList]

/-- The same token `n` bytes further to the right. -/
def Token.shift (n : Nat) (t : Token) : Token := { t with offset := n + t.offset }

/-- Where a text stands decides the offsets of its tokens and nothing else. -/
theorem tokensFrom_shift (n offset : Nat) (cs : List Char) :
    tokensFrom (n + offset) cs = (tokensFrom offset cs).map (Token.shift n) := by
  fun_induction tokensFrom offset cs with
  | case1 => rw [tokensFrom]; rfl
  | case2 offset c cs kind more hm text ih =>
    rw [tokensFrom_cons, hm, List.map_cons, ← ih, ← Nat.add_assoc]
    rfl

theorem tokensFrom_eq_map_tokenize (n : Nat) (text : String) :
    tokensFrom n text.toList = (tokenize text).map (Token.shift n) :=
  tokensFrom_shift n 0 text.toList

/-- What is munched at the front of a text is the first token of other texts where it is munched. -/
theorem tokensFrom_munched (offset : Nat) (c : Char) (cs rest : List Char)
    (h : munch c (cs.take (munch c cs).2 ++ rest) = munch c cs) :
    tokensFrom offset (c :: (cs.take (munch c cs).2 ++ rest)) =
      ⟨(munch c cs).1, String.ofList (c :: cs.take (munch c cs).2), offset⟩ ::
        tokensFrom (offset + byteSize (c :: cs.take (munch c cs).2)) rest := by
  have hlen : (cs.take (munch c cs).2).length = (munch c cs).2 := by
    rw [List.length_take, Nat.min_eq_left (munch_length c cs)]
  rw [tokensFrom_cons, h, List.take_left' hlen, List.drop_left' hlen]

theorem tokensFrom_front (offset : Nat) (c : Char) (cs rest : List Char)
    (h : rest <+: cs.drop (munch c cs).2) :
    tokensFrom offset (c :: (cs.take (munch c cs).2 ++ rest)) =
      ⟨(munch c cs).1, String.ofList (c :: cs.take (munch c cs).2), offset⟩ ::
        tokensFrom (offset + byteSize (c :: cs.take (munch c cs).2)) rest := by
  have htake : cs.take (munch c cs).2 ++ rest = cs.take ((munch c cs).2 + rest.length) := by
    rw [List.take_add, ← List.prefix_iff_eq_take.1 h]
  refine tokensFrom_munched offset c cs rest ?_
  rw [htake]
  exact munch_take c cs _ (Nat.le_add_right _ _)

/-- Cut between two tokens, a text falls into two texts with the tokens on either side. -/
theorem tokensFrom_cut (offset : Nat) (cs : List Char) (xs ys : List Token)
    (h : tokensFrom offset cs = xs ++ ys) :
    tokensFrom offset (spelling xs) = xs ∧
      tokensFrom (offset + byteSize (spelling xs)) (spelling ys) = ys := by
  induction xs generalizing offset cs with
  | nil =>
    have hs : spelling ys = cs := by
      rw [← tokensFrom_texts offset cs, h]
      rfl
    exact ⟨by rw [spelling_nil, tokensFrom], by rw [hs]; exact h⟩
  | cons x xs ih =>
    cases cs with
    | nil => rw [tokensFrom] at h; cases h
    | cons c cs =>
      rw [tokensFrom_cons, List.cons_append] at h
      obtain ⟨rfl, hrest⟩ := List.cons.inj h
      obtain ⟨hx, hy⟩ := ih _ _ hrest
      have hs : spelling xs ++ spelling ys = cs.drop (munch c cs).2 := by
        rw [← spelling_append, ← hrest]
        exact tokensFrom_texts _ _
      rw [spelling_cons, String.toList_ofList, List.cons_append]
      constructor
      · rw [tokensFrom_front offset c cs _ ⟨spelling ys, hs⟩, hx]
      · rw [← List.cons_append, byteSize_append, ← Nat.add_assoc]
        exact hy

/-- A token is munched from the text that is left, and stands where the tokens before it end. -/
theorem tokensFrom_token (offset : Nat) (cs : List Char) (before after : List Token) (t : Token)
    (h : tokensFrom offset cs = before ++ t :: after) :
    ∃ c rest, spelling (t :: after) = c :: rest ∧
      t = ⟨(munch c rest).1, String.ofList (c :: rest.take (munch c rest).2),
        offset + byteSize (spelling before)⟩ := by
  obtain ⟨_, hafter⟩ := tokensFrom_cut offset cs before (t :: after) h
  cases hs : spelling (t :: after) with
  | nil =>
    rw [hs, tokensFrom] at hafter
    cases hafter
  | cons c rest =>
    rw [hs, tokensFrom_cons] at hafter
    exact ⟨c, rest, rfl, (List.cons.inj hafter).1.symm⟩

section Places
variable (line : String)

theorem token_extent (before after : List Token) (t : Token)
    (h : tokenize line = before ++ t :: after) :
    t.offset = byteSize (spelling before) ∧ t.stop = byteSize (spelling (before ++ [t])) ∧
      t.offset < t.stop := by
  obtain ⟨c, rest, _, ht⟩ := tokensFrom_token 0 line.toList before after t h
  have hoffset : t.offset = byteSize (spelling before) := by rw [ht, Nat.zero_add]
  have hpos : 0 < byteSize t.text.toList := by
    rw [ht, String.toList_ofList, byteSize]
    exact Nat.add_pos_left (Char.utf8Size_pos c) _
  refine ⟨hoffset, ?_, ?_⟩
  · simp [Token.stop, hoffset]
  · rw [Token.stop]
    omega

/-- The tokens in front of a cut end there at the latest, and the others end behind it. -/
theorem filter_stop (xs ys : List Token) (h : tokenize line = xs ++ ys) :
    (tokenize line).filter (·.stop ≤ byteSize (spelling xs)) = xs ∧
      (tokenize line).filter (byteSize (spelling xs) < ·.stop) = ys := by
  have hfront : ∀ t ∈ xs, t.stop ≤ byteSize (spelling xs) := by
    intro t ht
    obtain ⟨a, b, rfl⟩ := List.append_of_mem ht
    rw [List.append_assoc, List.cons_append] at h
    rw [(token_extent line a (b ++ ys) t h).2.1]
    simp only [spelling_append, spelling_cons, spelling_nil, List.append_nil, byteSize_append]
    omega
  have hback : ∀ t ∈ ys, byteSize (spelling xs) < t.stop := by
    intro t ht
    obtain ⟨a, b, rfl⟩ := List.append_of_mem ht
    rw [← List.append_assoc] at h
    obtain ⟨hoffset, _, hlt⟩ := token_extent line (xs ++ a) b t h
    rw [spelling_append, byteSize_append] at hoffset
    omega
  rw [h, List.filter_append, List.filter_append]
  constructor
  · rw [List.filter_eq_self.2 (by simpa using hfront),
      List.filter_eq_nil_iff.2 (by simpa using hback), List.append_nil]
  · rw [List.filter_eq_nil_iff.2 (by simpa using hfront),
      List.filter_eq_self.2 (by simpa using hback), List.nil_append]

theorem offset_behind (before after : List Token) (t u : Token)
    (h : tokenize line = before ++ t :: u :: after) : u.offset = t.stop := by
  have hu : tokenize line = (before ++ [t]) ++ u :: after := by
    rw [h, List.append_assoc]
    rfl
  rw [(token_extent line before _ t h).2.1, (token_extent line _ after u hu).1]

theorem token_eq_of_offset (t u : Token) (ht : t ∈ tokenize line) (hu : u ∈ tokenize line)
    (h : t.offset = u.offset) : t = u := by
  obtain ⟨xs, ts, hts⟩ := List.append_of_mem ht
  obtain ⟨ys, us, hus⟩ := List.append_of_mem hu
  -- either is the first of the tokens that end behind that place
  have htback := (filter_stop line xs (t :: ts) hts).2
  have huback := (filter_stop line ys (u :: us) hus).2
  rw [← (token_extent line xs ts t hts).1, h] at htback
  rw [← (token_extent line ys us u hus).1] at huback
  exact (List.cons.inj (htback.symm.trans huback)).1

/-- Wherever a token begins or ends, the tokens fall into those in front and those behind. -/
theorem exists_split_at (k : Nat) (hk : ∃ t ∈ tokenize line, k = t.offset ∨ k = t.stop) :
    ∃ xs ys, tokenize line = xs ++ ys ∧ k = byteSize (spelling xs) := by
  obtain ⟨t, ht, hk⟩ := hk
  obtain ⟨before, after, h⟩ := List.append_of_mem ht
  obtain ⟨hoffset, hstop, _⟩ := token_extent line before after t h
  rcases hk with hk | hk
  · exact ⟨before, t :: after, h, by rw [hk, hoffset]⟩
  · exact ⟨before ++ [t], after, by rw [h]; simp, by rw [hk, hstop]⟩

/-- Cut where a token begins or ends, a line falls into two texts.  The tokens of the first are
those of the line that end there at the latest.  The tokens of the second are the others, their
offsets counted from the cut. -/
theorem tokenize_cut (k : Nat) (hk : ∃ t ∈ tokenize line, k = t.offset ∨ k = t.stop) :
    ∃ front back : String, line = front ++ back ∧ front.utf8ByteSize = k ∧
      tokenize front = (tokenize line).filter (·.stop ≤ k) ∧
      (tokenize back).map (Token.shift k) = (tokenize line).filter (k < ·.stop) := by
  obtain ⟨xs, ys, h, rfl⟩ := exists_split_at line k hk
  obtain ⟨hxs, hys⟩ := tokensFrom_cut 0 line.toList xs ys h
  obtain ⟨hfront, hback⟩ := filter_stop line xs ys h
  have hline : line.toList = spelling xs ++ spelling ys := by
    rw [← spelling_append, ← h]
    exact (tokenize_texts line).symm
  refine ⟨String.ofList (spelling xs), String.ofList (spelling ys), ?_, ?_, ?_, ?_⟩
  · rw [← String.ofList_append, ← hline, String.ofList_toList]
  · exact utf8ByteSize_ofList _
  · rw [hfront, tokenize, String.toList_ofList, hxs]
  · rw [hback, ← tokensFrom_eq_map_tokenize, String.toList_ofList]
    rwa [Nat.zero_add] at hys

/-- Behind a string that holds a dot and a character of two bytes, in front of another dot. -/
theorem tokenize_cut_string :
    (∃ t ∈ tokenize "'é.'.x", 5 = t.offset ∨ 5 = t.stop) ∧
      ∃ front back : String, "'é.'.x" = front ++ back ∧ front.utf8ByteSize = 5 ∧
        tokenize front = (tokenize "'é.'.x").filter (·.stop ≤ 5) ∧
        (tokenize back).map (Token.shift 5) = (tokenize "'é.'.x").filter (5 < ·.stop) := by
  have hk : ∃ t ∈ tokenize "'é.'.x", 5 = t.offset ∨ 5 = t.stop := by decide +kernel
  exact ⟨hk, tokenize_cut _ 5 hk⟩

end Places

end ScriptConsole
