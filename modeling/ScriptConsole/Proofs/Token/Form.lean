import ScriptConsole.Proofs.Token.Spelling

namespace ScriptConsole

/-- The inside of a double-quoted string.  A backslash takes the next character with it, which is
no line feed. -/
inductive EscapedText : List Char → Prop where
  | nil : EscapedText []
  | plain (c : Char) (cs : List Char) (hq : c ≠ '"') (hb : c ≠ '\\') (h : EscapedText cs) :
      EscapedText (c :: cs)
  | pair (c : Char) (cs : List Char) (hc : c ≠ '\n') (h : EscapedText cs) :
      EscapedText ('\\' :: c :: cs)

def punctuationMarks : List (Char × TokenKind) :=
  [('(', .lParen), (')', .rParen), ('[', .lBracket), (']', .rBracket), ('{', .lBrace),
    ('}', .rBrace), ('.', .dot), (',', .comma), (';', .semicolon)]

/-- The texts of the tokens of a kind.  Nothing has the form of an unknown token, and a lone `=` is
no operator. -/
inductive TokenKind.Form : TokenKind → List Char → Prop where
  | whitespace (cs : List Char) (hne : cs ≠ []) (h : ∀ c ∈ cs, isTokenBlank c = true) :
      Form .whitespace cs
  | ident (c : Char) (cs : List Char) (hc : isIdentStart c = true)
      (h : ∀ d ∈ cs, isIdentContinue d = true) : Form .ident (c :: cs)
  | integer (ds : List Char) (hne : ds ≠ []) (h : ∀ d ∈ ds, d.isDigit = true) : Form .integer ds
  | decimal (ds fs : List Char) (hds : ds ≠ []) (hfs : fs ≠ []) (h : ∀ d ∈ ds, d.isDigit = true)
      (h' : ∀ f ∈ fs, f.isDigit = true) : Form .decimal (ds ++ '.' :: fs)
  | raw (cs : List Char) (h : '\'' ∉ cs) : Form .string ('\'' :: (cs ++ ['\'']))
  | escaped (cs : List Char) (h : EscapedText cs) : Form .string ('"' :: (cs ++ ['"']))
  | openRaw (cs : List Char) (h : '\'' ∉ cs) : Form .unterminatedString ('\'' :: cs)
  | openEscaped (cs : List Char) (h : EscapedText cs) : Form .unterminatedString ('"' :: cs)
  | punctuation (c : Char) (kind : TokenKind) (h : (c, kind) ∈ punctuationMarks) : Form kind [c]
  | assign : Form .assign ['=']
  | operator (cs : List Char) (hne : cs ≠ []) (h : ∀ c ∈ cs, isOperatorChar c = true)
      (hlone : cs ≠ ['=']) : Form .operator cs

theorem isIdentifier_iff_form (name : String) :
    isIdentifier name = true ↔ TokenKind.ident.Form name.toList := by
  rw [isIdentifier_iff]
  constructor
  · rintro ⟨c, cs, htext, hc, hcs⟩
    rw [htext]
    exact .ident c cs hc hcs
  · intro h
    generalize name.toList = text at h
    cases h with
    | ident c cs hc hcs => exact ⟨c, cs, rfl, hc, hcs⟩
    | punctuation c _ hmark => simp [punctuationMarks] at hmark

theorem TokenKind.Form.ne_nil {kind : TokenKind} {text : List Char} (h : kind.Form text) :
    text ≠ [] := by
  cases h with
  | whitespace _ hne _ => exact hne
  | integer _ hne _ => exact hne
  | operator _ hne _ _ => exact hne
  | decimal _ _ hne _ _ _ => simp
  | _ => exact List.cons_ne_nil _ _

theorem TokenKind.Form.ne_unknown {kind : TokenKind} {text : List Char} (h : kind.Form text) :
    kind ≠ .unknown := by
  rintro rfl
  cases h with
  | punctuation c _ h => simp [punctuationMarks] at h

theorem punctuation?_eq_some (c : Char) (kind : TokenKind) :
    punctuation? c = some kind ↔ (c, kind) ∈ punctuationMarks := by
  constructor
  · intro h
    unfold punctuation? at h
    split at h <;> cases h <;> decide
  · intro h
    simp only [punctuationMarks, List.mem_cons, Prod.mk.injEq, List.not_mem_nil, or_false] at h
    rcases h with h | h | h | h | h | h | h | h | h <;> obtain ⟨rfl, rfl⟩ := h <;> rfl

/-- The characters that begin tokens other than identifiers and numbers. -/
def signs : List Char := " \t\r\n'\"+-*/%!<>&|^~?:=()[]{}.,;".toList

theorem isTokenBlank_sign {c : Char} (h : isTokenBlank c = true) : c ∈ signs := by
  simp only [isTokenBlank, Bool.or_eq_true, beq_iff_eq] at h
  rcases h with ((rfl | rfl) | rfl) | rfl <;> decide

theorem isIdentContinue_sign {c : Char} (h : c ∈ signs) : isIdentContinue c = false := by
  have all : signs.all (fun d => isIdentContinue d == false) = true := by decide
  exact eq_of_beq (List.all_eq_true.1 all c h)

theorem isIdentStart_sign {c : Char} (h : c ∈ signs) : isIdentStart c = false :=
  (Bool.or_eq_false_iff.1 (isIdentContinue_sign h)).1

theorem isDigit_sign {c : Char} (h : c ∈ signs) : c.isDigit = false := by
  have all : signs.all (fun d => d.isDigit == false) = true := by decide
  exact eq_of_beq (List.all_eq_true.1 all c h)

theorem isOperatorChar_sign {c : Char} (h : isOperatorChar c = true) :
    c ∈ signs ∧ isTokenBlank c = false ∧ c ≠ '\'' ∧ c ≠ '"' := by
  have all : "+-*/%!<>&|^~?:=".toList.all (fun d =>
      decide (d ∈ signs ∧ isTokenBlank d = false ∧ d ≠ '\'' ∧ d ≠ '"')) = true := by decide
  exact of_decide_eq_true (List.all_eq_true.1 all c (List.contains_iff_mem.1 h))

theorem isOperatorChar_blank {c : Char} (h : isTokenBlank c = true) :
    isOperatorChar c = false := by
  cases ho : isOperatorChar c with
  | false => rfl
  | true => cases h.symm.trans (isOperatorChar_sign ho).2.1

theorem isIdentStart_of_isDigit {c : Char} (h : c.isDigit = true) : isIdentStart c = false := by
  have hrange : c.toNat ∈ List.range' 48 10 := by
    have hc := Char.isDigit_iff_toNat.1 h
    simp only [Char.reduceToNat] at hc
    rw [List.mem_range'_1]
    omega
  have all : ∀ n ∈ List.range' 48 10, isIdentStart (Char.ofNat n) = false := by decide
  rw [← Char.ofNat_toNat c]
  exact all c.toNat hrange

theorem isIdentStart_plain {c : Char} (h : isIdentStart c = true) :
    (isTokenBlank c = false ∧ isOperatorChar c = false) ∧ c.isDigit = false := by
  have hsign : c ∉ signs := fun hc => Bool.noConfusion ((isIdentStart_sign hc).symm.trans h)
  refine ⟨⟨?_, ?_⟩, ?_⟩
  · exact Bool.eq_false_iff.2 fun hb => hsign (isTokenBlank_sign hb)
  · exact Bool.eq_false_iff.2 fun ho => hsign (isOperatorChar_sign ho).1
  · exact Bool.eq_false_iff.2 fun hd =>
      Bool.noConfusion ((isIdentStart_of_isDigit hd).symm.trans h)

theorem runLength_of_all (p : Char → Bool) (cs rest : List Char) (h : ∀ c ∈ cs, p c = true)
    (hrest : ∀ d ∈ rest.head?, p d = false) : runLength p (cs ++ rest) = cs.length := by
  rw [runLength, List.takeWhile_append_of_pos h]
  cases rest with
  | nil => simp
  | cons d ds => simp [hrest d rfl]

section Munch
variable (c : Char) (cs : List Char)

theorem munch_blank (h : isTokenBlank c = true) :
    munch c cs = (.whitespace, runLength isTokenBlank cs) := by
  rw [munch, if_pos h]

theorem munch_ident (h : isIdentStart c = true) :
    munch c cs = (.ident, runLength isIdentContinue cs) := by
  have hb : ¬ isTokenBlank c = true := fun hb => by
    simp [isIdentStart_sign (isTokenBlank_sign hb)] at h
  rw [munch, if_neg hb, if_pos h]

theorem munch_digit (h : c.isDigit = true) : munch c cs = munchNumber cs := by
  have hb : ¬ isTokenBlank c = true := fun hb => by
    simp [isDigit_sign (isTokenBlank_sign hb)] at h
  have hi : ¬ isIdentStart c = true := by simp [isIdentStart_of_isDigit h]
  rw [munch, if_neg hb, if_neg hi, if_pos h]

theorem munch_raw : munch '\'' cs = munchRaw cs := rfl

theorem munch_escaped : munch '"' cs = munchEscaped cs := rfl

theorem munch_operator (h : isOperatorChar c = true) : munch c cs = munchOperator c cs := by
  obtain ⟨hs, hb, hr, hq⟩ := isOperatorChar_sign h
  rw [munch, if_neg (by simp [hb]), if_neg (by simp [isIdentStart_sign hs]),
    if_neg (by simp [isDigit_sign hs]), if_neg hr, if_neg hq, if_pos h]

theorem munch_punctuation (kind : TokenKind) (h : (c, kind) ∈ punctuationMarks) :
    munch c cs = (kind, 0) := by
  simp only [punctuationMarks, List.mem_cons, Prod.mk.injEq, List.not_mem_nil, or_false] at h
  rcases h with h | h | h | h | h | h | h | h | h <;> obtain ⟨rfl, rfl⟩ := h <;> rfl

end Munch

/-- No token of this kind goes on with `rest`. -/
def TokenKind.Ends : TokenKind → List Char → Prop
  | .whitespace, rest => ∀ d ∈ rest.head?, isTokenBlank d = false
  | .ident, rest => ∀ d ∈ rest.head?, isIdentContinue d = false
  | .integer, rest => (∀ d ∈ rest.head?, d.isDigit = false) ∧
      ∀ f fs, rest = '.' :: f :: fs → f.isDigit = false
  | .decimal, rest => ∀ d ∈ rest.head?, d.isDigit = false
  | .unterminatedString, rest => rest = []
  | .assign, rest | .operator, rest => ∀ d ∈ rest.head?, isOperatorChar d = false
  | _, _ => True

theorem TokenKind.ends_nil (kind : TokenKind) : kind.Ends [] := by
  cases kind <;> simp [TokenKind.Ends]

theorem munchNumber_integer (ds rest : List Char) (h : ∀ d ∈ ds, d.isDigit = true)
    (hrest : TokenKind.integer.Ends rest) : munchNumber (ds ++ rest) = (.integer, ds.length) := by
  obtain ⟨hd, hf⟩ := hrest
  rw [munchNumber, runLength_of_all _ ds rest h hd, List.drop_left]
  cases rest with
  | nil => rfl
  | cons d rest =>
    by_cases hdot : d = '.'
    · subst hdot
      have hz : runLength Char.isDigit rest = 0 := by
        cases rest with
        | nil => rfl
        | cons f fs => simp [runLength, hf f fs rfl]
      simp [hz]
    · simp [hdot]

theorem munchNumber_decimal (ds fs rest : List Char) (hfs : fs ≠ [])
    (h : ∀ d ∈ ds, d.isDigit = true) (h' : ∀ f ∈ fs, f.isDigit = true)
    (hrest : ∀ d ∈ rest.head?, d.isDigit = false) :
    munchNumber (ds ++ '.' :: (fs ++ rest)) = (.decimal, ds.length + 1 + fs.length) := by
  have hwhole : runLength Char.isDigit (ds ++ '.' :: (fs ++ rest)) = ds.length :=
    runLength_of_all _ ds _ h (by simp)
  have hlen : fs.length ≠ 0 := fun hl => hfs (List.length_eq_zero_iff.1 hl)
  rw [munchNumber, hwhole, List.drop_left]
  simp only [runLength_of_all _ fs rest h' hrest]

theorem not_quote_of_not_mem {cs : List Char} (h : '\'' ∉ cs) :
    ∀ c ∈ cs, decide (c ≠ '\'') = true := by
  intro c hc
  rw [decide_eq_true_eq]
  exact fun he => h (he ▸ hc)

theorem munchRaw_closed (cs rest : List Char) (h : '\'' ∉ cs) :
    munchRaw (cs ++ '\'' :: rest) = (.string, cs.length + 1) := by
  have hr : runLength (· ≠ '\'') (cs ++ '\'' :: rest) = cs.length :=
    runLength_of_all _ cs _ (not_quote_of_not_mem h) (by simp)
  rw [munchRaw, hr, if_pos (by simp)]

theorem munchRaw_open (cs : List Char) (h : '\'' ∉ cs) :
    munchRaw cs = (.unterminatedString, cs.length) := by
  have hr : runLength (· ≠ '\'') (cs ++ []) = cs.length :=
    runLength_of_all _ cs _ (not_quote_of_not_mem h) (by simp)
  rw [List.append_nil] at hr
  rw [munchRaw, hr, if_neg (Nat.lt_irrefl _)]

theorem munchEscaped_plain (c : Char) (cs : List Char) (hq : c ≠ '"') (hb : c ≠ '\\') :
    munchEscaped (c :: cs) = (munchEscaped cs).extend 1 := by
  rw [munchEscaped]
  · exact hq
  · exact fun hc _ => hb hc
  · exact fun _ _ hc _ => hb hc

theorem munchEscaped_pair (c : Char) (cs : List Char) (hc : c ≠ '\n') :
    munchEscaped ('\\' :: c :: cs) = (munchEscaped cs).extend 2 := by
  rw [munchEscaped, if_neg hc]

theorem munchEscaped_append (cs rest : List Char) (h : EscapedText cs) :
    munchEscaped (cs ++ rest) = (munchEscaped rest).extend cs.length := by
  induction h with
  | nil => rfl
  | plain c cs hq hb _ ih =>
    rw [List.cons_append, munchEscaped_plain c _ hq hb, ih]
    rfl
  | pair c cs hc _ ih =>
    rw [List.cons_append, List.cons_append, munchEscaped_pair c _ hc, ih]
    rfl

theorem munchOperator_run (c : Char) (cs rest : List Char) (h : ∀ d ∈ cs, isOperatorChar d = true)
    (hlone : c :: cs ≠ ['=']) (hrest : ∀ d ∈ rest.head?, isOperatorChar d = false) :
    munchOperator c (cs ++ rest) = (.operator, cs.length) := by
  rw [munchOperator, runLength_of_all _ cs rest h hrest]
  cases cs with
  | nil =>
    have hc : c ≠ '=' := fun hc => hlone (by rw [hc])
    simp [hc]
  | cons d ds => rfl

theorem munchOperator_lone (rest : List Char) (hrest : ∀ d ∈ rest.head?, isOperatorChar d = false) :
    munchOperator '=' rest = (.assign, 0) := by
  have hr : runLength isOperatorChar ([] ++ rest) = 0 :=
    runLength_of_all _ [] rest (List.forall_mem_nil _) hrest
  rw [List.nil_append] at hr
  rw [munchOperator, hr]
  rfl

/-- A text of some form is one token, wherever no longer token of this kind begins. -/
theorem munch_form (kind : TokenKind) (c : Char) (cs rest : List Char) (h : kind.Form (c :: cs))
    (hrest : kind.Ends rest) : munch c (cs ++ rest) = (kind, cs.length) := by
  generalize htext : c :: cs = text at h
  cases h with
  | whitespace _ _ h =>
    subst htext
    obtain ⟨hc, hcs⟩ := List.forall_mem_cons.1 h
    rw [munch_blank c _ hc, runLength_of_all _ cs rest hcs hrest]
  | ident _ _ hc h =>
    cases htext
    rw [munch_ident c _ hc, runLength_of_all _ cs rest h hrest]
  | integer _ _ h =>
    subst htext
    obtain ⟨hc, hcs⟩ := List.forall_mem_cons.1 h
    rw [munch_digit c _ hc, munchNumber_integer cs rest hcs hrest]
  | decimal ds fs hds hfs h h' =>
    cases ds with
    | nil => exact absurd rfl hds
    | cons d ds =>
      obtain ⟨rfl, rfl⟩ : c = d ∧ cs = ds ++ '.' :: fs := List.cons.inj htext
      obtain ⟨hc, hcs⟩ := List.forall_mem_cons.1 h
      rw [munch_digit c _ hc, List.append_assoc, List.cons_append,
        munchNumber_decimal ds fs rest hfs hcs h' hrest, List.length_append, List.length_cons]
      congr 1
      omega
  | raw cs h =>
    cases htext
    rw [munch_raw, List.append_assoc, List.singleton_append, munchRaw_closed cs rest h,
      List.length_append, List.length_singleton]
  | escaped cs h =>
    cases htext
    rw [munch_escaped, List.append_assoc, List.singleton_append, munchEscaped_append cs _ h,
      munchEscaped, List.length_append, List.length_singleton, Munch.extend, Nat.add_comm]
  | openRaw cs h =>
    cases htext
    obtain rfl : rest = [] := hrest
    rw [munch_raw, List.append_nil, munchRaw_open cs h]
  | openEscaped cs h =>
    cases htext
    obtain rfl : rest = [] := hrest
    rw [munch_escaped, munchEscaped_append cs _ h, munchEscaped, Munch.extend, Nat.zero_add]
  | punctuation _ _ h =>
    cases htext
    exact munch_punctuation c _ kind h
  | assign =>
    cases htext
    exact (munch_operator '=' _ rfl).trans (munchOperator_lone rest hrest)
  | operator _ _ h hlone =>
    subst htext
    obtain ⟨hc, hcs⟩ := List.forall_mem_cons.1 h
    rw [munch_operator c _ hc, munchOperator_run c cs rest hcs hlone hrest]

theorem tokensFrom_form (offset : Nat) (kind : TokenKind) (text rest : List Char)
    (h : kind.Form text) (hrest : kind.Ends rest) :
    tokensFrom offset (text ++ rest) =
      ⟨kind, String.ofList text, offset⟩ :: tokensFrom (offset + byteSize text) rest := by
  cases text with
  | nil => exact absurd rfl h.ne_nil
  | cons c cs =>
    have hm := munch_form kind c cs rest h hrest
    rw [List.cons_append, tokensFrom_cons, hm, List.take_left, List.drop_left]

/-- No text has the forms of two kinds. -/
theorem TokenKind.Form.unique {kind kind' : TokenKind} {text : List Char} (h : kind.Form text)
    (h' : kind'.Form text) : kind = kind' := by
  cases text with
  | nil => exact absurd rfl h.ne_nil
  | cons c cs =>
    have hm := munch_form kind c cs [] h kind.ends_nil
    rw [munch_form kind' c cs [] h' kind'.ends_nil] at hm
    exact (Prod.mk.inj hm).1.symm

end ScriptConsole
