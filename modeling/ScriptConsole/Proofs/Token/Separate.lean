import ScriptConsole.Expr.Parser
import ScriptConsole.Proofs.Token.Spacing

namespace ScriptConsole

/-- Nothing, or a text that begins with a blank, or with a dot and no digit behind this. -/
inductive Separate : List Char → Prop where
  | nil : Separate []
  | blank (c : Char) (cs : List Char) (h : isTokenBlank c = true) : Separate (c :: cs)
  | dot (cs : List Char) (h : ∀ d ∈ cs.head?, d.isDigit = false) : Separate ('.' :: cs)

namespace Separate
variable {back : List Char} (h : Separate back)
include h

theorem head_sign (d : Char) (hd : d ∈ back.head?) : d ∈ signs ∧ isOperatorChar d = false := by
  cases h with
  | nil => cases hd
  | blank c cs hc =>
    cases hd
    exact ⟨isTokenBlank_sign hc, isOperatorChar_blank hc⟩
  | dot cs _ =>
    cases hd
    decide

theorem ends {kind : TokenKind} (hclosed : kind ≠ .unterminatedString)
    (hblank : kind ≠ .whitespace) : kind.Ends back := by
  have hdigit : ∀ d ∈ back.head?, d.isDigit = false :=
    fun d hd => isDigit_sign (h.head_sign d hd).1
  cases kind with
  | unterminatedString => exact (hclosed rfl).elim
  | whitespace => exact (hblank rfl).elim
  | ident => exact fun d hd => isIdentContinue_sign (h.head_sign d hd).1
  | decimal => exact hdigit
  | assign | operator => exact fun d hd => (h.head_sign d hd).2
  | integer =>
    refine ⟨hdigit, ?_⟩
    rintro f fs rfl
    cases h with
    | blank _ _ hdot => exact absurd hdot (by decide)
    | dot _ hcs => exact hcs f rfl
  | string | lParen | rParen | lBracket | rBracket | lBrace | rBrace | dot | comma | semicolon
  | unknown => trivial

/-- A blank that the first part ends with may go on into the second, which does not count. -/
theorem filter_append (offset : Nat) (front : List Char)
    (hclosed : ∀ t ∈ tokensFrom offset front, t.kind ≠ .unterminatedString) :
    (tokensFrom offset (front ++ back)).filter (·.kind ≠ .whitespace) =
      (tokensFrom offset front).filter (·.kind ≠ .whitespace) ++
        (tokensFrom (offset + byteSize front) back).filter (·.kind ≠ .whitespace) := by
  fun_induction tokensFrom offset front with
  | case1 => rfl
  | case2 offset c cs kind more hm text ih =>
    obtain ⟨hkind, hrest⟩ := List.forall_mem_cons.1 hclosed
    have hcut : c :: cs = text ++ cs.drop more := by simp [text]
    have hsize : offset + byteSize (c :: cs) =
        offset + byteSize text + byteSize (cs.drop more) := by
      rw [hcut, byteSize_append, Nat.add_assoc]
    by_cases hblank : kind = .whitespace
    · have hblanks : ∀ d ∈ text, isTokenBlank d = true := by
        have hall := blank_of_munch c cs (by rw [hm]; exact hblank)
        rwa [hm] at hall
      rw [List.filter_cons_of_neg (by simpa using hblank), hcut, List.append_assoc,
        filter_blanks _ text _ hblanks, ih hrest, ← hcut, hsize]
    · have hends : kind.Ends (cs.drop more ++ back) := by
        cases hdrop : cs.drop more with
        | nil => exact h.ends hkind hblank
        | cons d ds =>
          have hhere := munch_ends c cs (by rw [hm]; exact hkind)
          rw [hm, hdrop] at hhere
          exact hhere.append back hkind fun _ d hd => isDigit_sign (h.head_sign d hd).1
      have hmore : more ≤ cs.length := by
        have hle := munch_length c cs
        rwa [hm] at hle
      have hfront : munch c (cs ++ back) = (kind, more) := by
        rw [← hm]
        refine munch_append c cs back ?_
        rwa [hm]
      rw [List.cons_append, tokensFrom_cons, hfront]
      dsimp only
      rw [List.take_append_of_le_length hmore, List.drop_append_of_le_length hmore,
        List.filter_cons_of_pos (by simpa using hblank),
        List.filter_cons_of_pos (by simpa using hblank), ih hrest, hsize, List.cons_append]

end Separate

theorem significantTokens_append {front back : String} (h : Separate back.toList)
    (hclosed : ∀ t ∈ tokenize front, t.kind ≠ .unterminatedString) :
    significantTokens (front ++ back) = significantTokens front ++
      (significantTokens back).map (Token.shift front.utf8ByteSize) := by
  rw [significantTokens, tokenize, String.toList_append, h.filter_append 0 _ hclosed, Nat.zero_add,
    byteSize_toList, tokensFrom_eq_map_tokenize front.utf8ByteSize, List.filter_map]
  rfl

end ScriptConsole
