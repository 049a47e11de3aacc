import ScriptConsole.Proofs.Chain.Completable
import ScriptConsole.Proofs.Token.Seam

namespace ScriptConsole

section Tail
variable (opened : List Nat) (tail : List Token) (t : Token) (ts : List Token)

theorem typedTail_unterminated (ht : t.kind = .unterminatedString) :
    typedTail opened tail (t :: ts) = .error (.unterminatedString t.offset) := by
  rw [typedTail.eq_def]
  simp only [ht]

theorem typedTail_lParen (ht : t.kind = .lParen) :
    typedTail opened tail (t :: ts) = typedTail (t.offset :: opened) tail ts := by
  rw [typedTail.eq_def]
  simp only [ht]

theorem typedTail_rParen (ht : t.kind = .rParen) :
    typedTail opened tail (t :: ts) = match opened with
      | [] => .error (.unexpectedCloseParen t.offset)
      | _ :: opened => typedTail opened tail ts := by
  cases opened with
  | nil =>
    rw [typedTail.eq_def]
    simp only [ht]
  | cons _ opened =>
    rw [typedTail.eq_def]
    simp only [ht]

/-- A token that is no parenthesis may end the expression in front of it. -/
theorem typedTail_plain (hu : t.kind ≠ .unterminatedString) (hl : t.kind ≠ .lParen)
    (hr : t.kind ≠ .rParen) :
    typedTail opened tail (t :: ts) =
      typedTail opened (if opened.isEmpty && t.kind.endsExpression then ts else tail) ts := by
  rw [typedTail.eq_def]
  dsimp only
  split
  · next h => exact (hu h).elim
  · next h => exact (hl h).elim
  · next h => exact (hr h).elim
  · split <;> rfl

end Tail

theorem typedTail_concat (opened : List Nat) (tail ts : List Token) (t : Token)
    (ht : t.kind = .ident) :
    typedTail opened (tail ++ [t]) (ts ++ [t]) = (typedTail opened tail ts).map (· ++ [t]) := by
  induction ts generalizing opened tail with
  | nil =>
    rw [List.nil_append, typedTail_plain _ _ _ _ (by simp [ht]) (by simp [ht]) (by simp [ht])]
    simp only [ht, TokenKind.endsExpression, Bool.and_false, Bool.false_eq_true, if_false]
    cases opened <;> rfl
  | cons x xs ih =>
    rw [List.cons_append]
    by_cases hu : x.kind = .unterminatedString
    · rw [typedTail_unterminated _ _ _ _ hu, typedTail_unterminated _ _ _ _ hu]
      rfl
    by_cases hl : x.kind = .lParen
    · rw [typedTail_lParen _ _ _ _ hl, typedTail_lParen _ _ _ _ hl, ih]
    by_cases hr : x.kind = .rParen
    · rw [typedTail_rParen _ _ _ _ hr, typedTail_rParen _ _ _ _ hr]
      cases opened with
      | nil => rfl
      | cons _ opened => exact ih opened tail
    · rw [typedTail_plain _ _ _ _ hu hl hr, typedTail_plain _ _ _ _ hu hl hr, ← ih]
      split <;> rfl

theorem Stem.typedTail_front {stem : String} {w ts typed : List Token} (hstem : Stem stem w)
    (h : typedTail [] (ts ++ w) (ts ++ w) = .ok (typed ++ w)) : typedTail [] ts ts = .ok typed := by
  cases hstem with
  | empty => simpa using h
  | name t ht =>
    rw [typedTail_concat _ _ _ _ ht] at h
    obtain ⟨rest, hrest, heq⟩ := (map_ok_iff _ _ _).1 h
    rw [hrest, List.append_cancel_right heq]

/-- The links stay when another name is typed behind them. -/
theorem TypedLinks.exists_front {typed : List Token} {links : List Link} {stem : String}
    (h : TypedLinks typed links stem) :
    ∃ front w, typed = front ++ w ∧ Stem stem w ∧
      (front = [] ∨ ∃ inner d, front = inner ++ [d] ∧ d.kind = .dot) ∧
      ∀ t : Token, t.kind = .ident → TypedLinks (front ++ [t]) links t.text := by
  cases h with
  | stem _ _ hstem => exact ⟨[], typed, rfl, hstem, .inl rfl, fun t ht => .stem [t] _ (.name t ht)⟩
  | links first w more ws d name _ hfirst hmore hd hstem =>
    refine ⟨w ++ (ws.flatten ++ [d]), name, by simp, hstem, .inr ⟨w ++ ws.flatten, d, by simp, hd⟩,
      ?_⟩
    intro t ht
    have hlinks := TypedLinks.links first w more ws d [t] _ hfirst hmore hd (.name t ht)
    simpa using hlinks

/-- A token that ends an expression ends in front of a text that begins with neither a blank nor an
operator. -/
theorem TokenKind.ends_of_endsExpression {kind : TokenKind} (h : kind.endsExpression = true)
    {cs : List Char} (hcs : ∀ c ∈ cs.head?, isTokenBlank c = false ∧ isOperatorChar c = false) :
    kind.Ends cs := by
  cases kind with
  | whitespace => exact fun c hc => (hcs c hc).1
  | assign | operator => exact fun c hc => (hcs c hc).2
  | comma | semicolon | lBracket | rBracket | lBrace | rBrace | unknown => trivial
  | ident | integer | decimal | string | unterminatedString | lParen | rParen | dot => cases h

/-- Behind all tokens that are not being typed an expression has ended. -/
theorem last_endsExpression {ts : List Token} (h : typedTail [] ts ts = .ok []) :
    ∀ t ∈ ts.getLast?, t.kind.endsExpression = true := by
  obtain ⟨_, _, before, hts, hbefore, _⟩ :=
    (typedTail_iff [] [] ts ts [] rfl (candidate_begin ts)).1 h
  rw [List.nil_append, List.append_nil] at hts
  obtain rfl | ⟨inner, t, rfl, ht, _⟩ := hbefore
  · rw [hts]
    nofun
  · rw [hts, List.getLast?_concat]
    rintro _ ⟨⟩
    exact ht

theorem closed_of_typedTail {ts typed : List Token} (h : typedTail [] ts ts = .ok typed) :
    ∀ t ∈ ts, t.kind ≠ .unterminatedString :=
  ((typedTail_iff [] [] ts ts typed rfl (candidate_begin ts)).1 h).1

/-- What stands in front of a name to be typed: its tokens are `ts`, and of these `near` belong to
the chain. -/
structure Fronts (front : String) (ts near : List Token) : Prop where
  tokens : tokenize front = ts
  tail : typedTail [] ts ts = .ok near
  dotted : near = [] ∨ ∃ inner d, near = inner ++ [d] ∧ d.kind = .dot

namespace Fronts
variable {front : String} {ts near : List Token} (h : Fronts front ts near)
include h

theorem last (t : Token) (ht : t ∈ ts.getLast?) :
    t.kind.endsExpression = true ∨ t.kind = .dot := by
  obtain hnear | ⟨inner, d, hnear, hd⟩ := h.dotted
  · exact .inl (last_endsExpression (hnear ▸ h.tail) t ht)
  · obtain ⟨before, rfl⟩ := typed_suffix h.tail
    rw [hnear, ← List.append_assoc, List.getLast?_concat] at ht
    cases ht
    exact .inr hd

theorem tokenize_name {name : String} (hname : isIdentifier name = true) :
    tokenize (front ++ name) = ts ++ [⟨.ident, name, front.utf8ByteSize⟩] := by
  have hfirst : ∀ c ∈ name.toList.head?,
      (isTokenBlank c = false ∧ isOperatorChar c = false) ∧ c.isDigit = false := by
    obtain ⟨c, cs, htext, hc, _⟩ := (isIdentifier_iff name).1 hname
    rw [htext]
    rintro _ ⟨⟩
    exact isIdentStart_plain hc
  rw [tokenize_append front name, h.tokens, tokenize_identifier hname]
  · rfl
  · rw [h.tokens]
    exact closed_of_typedTail h.tail
  · rw [h.tokens]
    intro t ht
    refine ⟨?_, fun _ d hd => (hfirst d hd).2⟩
    rcases h.last t ht with hends | hdot
    · exact TokenKind.ends_of_endsExpression hends fun c hc => (hfirst c hc).1
    · rw [hdot]
      trivial

theorem start_eq {stem : String} {w : List Token} (hstem : Stem stem w) {line : String}
    (hline : tokenize line = ts ++ w) (t : Token) (ht : t.offset = front.utf8ByteSize) (k : Nat) :
    ((near ++ w).head?.map (·.offset)).getD (byteSize line.toList) =
      ((near ++ [t]).head?.map (·.offset)).getD k := by
  cases near with
  | cons u us => rfl
  | nil =>
    rw [List.nil_append, List.nil_append, hstem.start_eq hline, List.head?_singleton,
      Option.map_some, Option.getD_some, ht, ← h.tokens, byteSize_tokenize]

end Fronts

theorem exists_fronts {line stem : String} {ts near w : List Token} (hstem : Stem stem w)
    (hline : tokenize line = ts ++ w)
    (htail : typedTail [] (tokenize line) (tokenize line) = .ok (near ++ w))
    (hdot : near = [] ∨ ∃ inner d, near = inner ++ [d] ∧ d.kind = .dot) :
    ∃ front : String, line = front ++ stem ∧ Fronts front ts near := by
  refine ⟨String.ofList (spelling ts), ?_, ?_, hstem.typedTail_front (hline ▸ htail), hdot⟩
  · rw [← String.toList_inj, String.toList_append, String.toList_ofList, ← hstem.spelling_eq,
      ← spelling_append, ← hline, spelling_tokenize]
  · rw [tokenize, String.toList_ofList]
    exact (tokensFrom_cut 0 line.toList _ _ hline).1

/-- A line is a front and the name being typed.  With another name behind the front, the chain is
the same but for the name. -/
theorem splitChain_front {line : String} {chain : AccessChain} (h : splitChain line = .ok chain) :
    ∃ front : String, line = front ++ chain.stem ∧
      ∀ name, isIdentifier name = true →
        splitChain (front ++ name) = .ok { chain with stem := name } := by
  obtain ⟨typed, links, htyped, hlinks, hstart, hshape⟩ := (splitChain_iff line chain).1 h
  obtain ⟨before, hbefore⟩ := typed_suffix htyped
  obtain ⟨near, w, rfl, hstem, hdot, hretype⟩ := hlinks.exists_front
  have htokens : tokenize line = (before ++ near) ++ w := by rw [← hbefore, List.append_assoc]
  obtain ⟨front, hline, hfront⟩ := exists_fronts hstem htokens htyped hdot
  refine ⟨front, hline, ?_⟩
  intro name hname
  let t : Token := ⟨.ident, name, front.utf8ByteSize⟩
  refine (splitChain_iff _ _).2 ⟨near ++ [t], links, ?_, hretype t rfl, ?_, hshape⟩
  · rw [hfront.tokenize_name hname, typedTail_concat _ _ _ t rfl, hfront.tail]
    rfl
  · exact hstart.trans (hfront.start_eq hstem htokens t rfl _)

theorem isIdentifier_stem {line : String} {chain : AccessChain} (h : splitChain line = .ok chain) :
    chain.stem = "" ∨ isIdentifier chain.stem = true := by
  obtain ⟨typed, links, htyped, hlinks, _⟩ := (splitChain_iff line chain).1 h
  obtain ⟨near, w, rfl, hstem, _⟩ := hlinks.exists_front
  generalize chain.stem = stem at hstem
  cases hstem with
  | empty => exact .inl rfl
  | name t ht =>
    have hmem : t ∈ tokenize line :=
      (typed_suffix htyped).subset (List.mem_append_right _ List.mem_cons_self)
    exact .inr (isIdentifier_of_ident hmem ht)

/-- What can follow the name being typed, or begin one. -/
structure Continues (stem more : String) : Prop where
  nonempty : more ≠ ""
  continues : ∀ c ∈ more.toList, isIdentContinue c = true
  starts : stem = "" → ∀ c ∈ more.toList.head?, isIdentStart c = true

theorem Continues.isIdentifier {stem more : String} (h : Continues stem more)
    (hstem : stem = "" ∨ isIdentifier stem = true) : isIdentifier (stem ++ more) = true := by
  rw [isIdentifier_iff, String.toList_append]
  rcases hstem with rfl | hstem
  · obtain ⟨c, cs, htext⟩ := List.exists_cons_of_ne_nil (mt String.toList_eq_nil_iff.1 h.nonempty)
    have hstarts := h.starts rfl
    have hcontinues := h.continues
    rw [htext] at hstarts hcontinues
    exact ⟨c, cs, htext, hstarts c rfl, (List.forall_mem_cons.1 hcontinues).2⟩
  · obtain ⟨c, cs, htext, hc, hcs⟩ := (isIdentifier_iff stem).1 hstem
    rw [htext]
    exact ⟨c, cs ++ more.toList, rfl, hc, List.forall_mem_append.2 ⟨hcs, h.continues⟩⟩

/-- Typing on, the chain stays but for the name. -/
theorem splitChain_continues {line : String} {chain : AccessChain}
    (h : splitChain line = .ok chain) {more : String} (hmore : Continues chain.stem more) :
    splitChain (line ++ more) = .ok { chain with stem := chain.stem ++ more } := by
  obtain ⟨front, hline, hname⟩ := splitChain_front h
  rw [hline, String.append_assoc]
  exact hname _ (hmore.isIdentifier (isIdentifier_stem h))

end ScriptConsole
