import ScriptConsole.Proofs.Token.Seam

namespace ScriptConsole

/-- The texts one behind the other, with blanks or none in front of each and behind the last. -/
inductive Spaced : List String → List Char → Prop where
  | nil (gap : List Char) (hgap : ∀ c ∈ gap, isTokenBlank c = true) : Spaced [] gap
  | cons (gap : List Char) (text : String) (texts : List String) (rest : List Char)
      (hgap : ∀ c ∈ gap, isTokenBlank c = true) (h : Spaced texts rest) :
      Spaced (text :: texts) (gap ++ (text.toList ++ rest))

/-- A text is spread out with no blanks at all. -/
theorem spaced_tokensFrom (offset : Nat) (cs : List Char) :
    Spaced ((tokensFrom offset cs).map Token.text) cs := by
  fun_induction tokensFrom offset cs with
  | case1 => exact .nil [] (List.forall_mem_nil _)
  | case2 offset c cs kind more hm text ih =>
    have hspaced := Spaced.cons [] (String.ofList text) _ _ (List.forall_mem_nil _) ih
    have hcut : [] ++ ((String.ofList text).toList ++ cs.drop more) = c :: cs := by simp [text]
    rwa [hcut] at hspaced

section Ends
variable {offset : Nat} {cs rest : List Char}

theorem head?_spaced (h : Spaced ((tokensFrom offset cs).map Token.text) rest) :
    ∀ d ∈ rest.head?, isTokenBlank d = true ∨ d ∈ cs.head? := by
  intro d hd
  cases cs with
  | nil =>
    rw [tokensFrom] at h
    cases h with
    | nil gap hgap => exact .inl (hgap d (List.mem_of_mem_head? hd))
  | cons c cs =>
    rw [tokensFrom_cons] at h
    cases h with
    | cons gap _ _ rest hgap _ =>
      cases gap with
      | nil =>
        rw [String.toList_ofList] at hd
        exact .inr hd
      | cons b gap =>
        cases hd
        exact .inl (hgap _ List.mem_cons_self)

theorem spaced_dot (h : Spaced ((tokensFrom offset cs).map Token.text) ('.' :: rest)) :
    ∃ n behind, cs = '.' :: behind ∧ Spaced ((tokensFrom n behind).map Token.text) rest := by
  have hdot : isTokenBlank '.' = false := rfl
  generalize hline : '.' :: rest = line at h
  cases cs with
  | nil =>
    rw [tokensFrom] at h
    cases h with
    | nil gap hgap =>
      subst hline
      cases hdot.symm.trans (hgap '.' List.mem_cons_self)
  | cons c cs =>
    rw [tokensFrom_cons] at h
    cases h with
    | cons gap _ _ behind hgap h =>
      rw [String.toList_ofList] at hline
      cases gap with
      | nil =>
        obtain ⟨rfl, hrest⟩ := List.cons.inj hline
        rw [munch_punctuation '.' cs .dot (by decide)] at hrest h
        rw [show rest = behind from hrest]
        exact ⟨_, cs, rfl, h⟩
      | cons b gap =>
        obtain ⟨rfl, _⟩ := List.cons.inj hline
        cases hdot.symm.trans (hgap '.' List.mem_cons_self)

theorem TokenKind.Ends.spaced {kind : TokenKind} (hends : kind.Ends cs)
    (h : Spaced ((tokensFrom offset cs).map Token.text) rest)
    (hclosed : kind ≠ .unterminatedString) (hblank : kind ≠ .whitespace) : kind.Ends rest := by
  have hhead (p : Char → Bool) (hp : ∀ c, isTokenBlank c = true → p c = false)
      (hcs : ∀ d ∈ cs.head?, p d = false) : ∀ d ∈ rest.head?, p d = false :=
    fun d hd => (head?_spaced h d hd).elim (hp d) (hcs d)
  have hdigit : ∀ c, isTokenBlank c = true → c.isDigit = false :=
    fun c hc => isDigit_sign (isTokenBlank_sign hc)
  cases kind with
  | unterminatedString => exact (hclosed rfl).elim
  | whitespace => exact (hblank rfl).elim
  | ident => exact hhead _ (fun c hc => isIdentContinue_sign (isTokenBlank_sign hc)) hends
  | decimal => exact hhead _ hdigit hends
  | assign | operator => exact hhead _ (fun _ => isOperatorChar_blank) hends
  | integer =>
    refine ⟨hhead _ hdigit hends.1, ?_⟩
    rintro f fs rfl
    obtain ⟨n, behind, rfl, hbehind⟩ := spaced_dot h
    rcases head?_spaced hbehind f rfl with hf | hf
    · exact hdigit f hf
    · obtain ⟨gs, rfl⟩ := List.head?_eq_some_iff.1 hf
      exact hends.2 f gs rfl
  | string | lParen | rParen | lBracket | rBracket | lBrace | rBrace | dot | comma | semicolon
  | unknown => trivial

end Ends

/-- A token without its place. -/
def Token.bare (t : Token) : TokenKind × String := (t.kind, t.text)

theorem tokensFrom_ending (offset : Nat) (c : Char) (cs rest : List Char)
    (h : (munch c cs).1.Ends rest) :
    tokensFrom offset (c :: (cs.take (munch c cs).2 ++ rest)) =
      ⟨(munch c cs).1, String.ofList (c :: cs.take (munch c cs).2), offset⟩ ::
        tokensFrom (offset + byteSize (c :: cs.take (munch c cs).2)) rest := by
  have hcut := munch_take c cs _ (Nat.le_refl (munch c cs).2)
  have hdrop : (cs.take (munch c cs).2).drop (munch c cs).2 = [] := by simp
  refine tokensFrom_munched offset c cs rest ?_
  rw [munch_append c _ rest, hcut]
  rwa [hcut, hdrop, List.nil_append]

theorem blank_of_munch (c : Char) (cs : List Char) (h : (munch c cs).1 = .whitespace) :
    ∀ d ∈ c :: cs.take (munch c cs).2, isTokenBlank d = true := by
  have hform := munch_has_form c cs (by simp [h])
  rw [h] at hform
  generalize c :: cs.take (munch c cs).2 = text at hform
  cases hform with
  | whitespace _ _ hblank => exact hblank
  | punctuation d _ hmark => simp [punctuationMarks] at hmark

theorem bare_spaced_from (offset n : Nat) (cs line : List Char)
    (hclosed : ∀ t ∈ tokensFrom offset cs, t.kind ≠ .unterminatedString)
    (h : Spaced ((tokensFrom offset cs).map Token.text) line) :
    ((tokensFrom n line).filter (·.kind ≠ .whitespace)).map Token.bare =
      ((tokensFrom offset cs).filter (·.kind ≠ .whitespace)).map Token.bare := by
  fun_induction tokensFrom offset cs generalizing n line with
  | case1 =>
    cases h with
    | nil _ hgap =>
      have hblanks := filter_blanks n line [] hgap
      rw [List.append_nil] at hblanks
      rw [hblanks, tokensFrom]
  | case2 offset c cs kind more hm text ih =>
    obtain ⟨hkind, hrest⟩ := List.forall_mem_cons.1 hclosed
    have hfirst : (munch c cs).1 = kind := by rw [hm]
    have hcut : c :: cs.take (munch c cs).2 = text := by rw [hm]
    have hdrop : cs.drop (munch c cs).2 = cs.drop more := by rw [hm]
    cases h with
    | cons gap _ _ rest hgap h =>
      rw [String.toList_ofList, filter_blanks n gap _ hgap]
      by_cases hblank : kind = .whitespace
      · have hblanks : ∀ d ∈ text, isTokenBlank d = true := by
          rw [← hcut]
          exact blank_of_munch c cs (hfirst.trans hblank)
        rw [filter_blanks _ text _ hblanks, ih _ rest hrest h,
          List.filter_cons_of_neg (by simpa using hblank)]
      · have hends : kind.Ends rest := by
          have hends := munch_ends c cs (hfirst ▸ hkind)
          rw [hfirst, hdrop] at hends
          exact hends.spaced h hkind hblank
        have htokens := tokensFrom_ending (n + byteSize gap) c cs rest (hfirst ▸ hends)
        rw [← List.cons_append, hcut, hfirst] at htokens
        rw [htokens, List.filter_cons_of_pos (by simpa using hblank),
          List.filter_cons_of_pos (by simpa using hblank), List.map_cons, List.map_cons,
          ih _ rest hrest h]
        rfl

/-- A line that spreads out a text with blanks has the tokens of the text, blanks apart. -/
theorem bare_spaced {source line : String}
    (hclosed : ∀ t ∈ tokenize source, t.kind ≠ .unterminatedString)
    (h : Spaced ((tokenize source).map Token.text) line.toList) :
    ((tokenize line).filter (·.kind ≠ .whitespace)).map Token.bare =
      ((tokenize source).filter (·.kind ≠ .whitespace)).map Token.bare :=
  bare_spaced_from 0 0 source.toList line.toList hclosed h

end ScriptConsole
