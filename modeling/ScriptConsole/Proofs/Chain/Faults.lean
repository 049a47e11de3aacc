import ScriptConsole.Proofs.Chain.Completable
import ScriptConsole.Proofs.Expr.Faults

namespace ScriptConsole

/-- In the tokens `seen` the parentheses at the offsets `opened` are open, the innermost first. -/
inductive Unclosed : List Token → List Nat → Prop where
  | none {seen : List Token} (h : Paired seen) : Unclosed seen []
  | inside {outer inner : List Token} {opened : List Nat} {p : Token} (houter : Unclosed outer opened)
      (hp : p.kind = .lParen) (hinner : Paired inner) :
      Unclosed (outer ++ p :: inner) (p.offset :: opened)

namespace Unclosed
variable {seen : List Token} {opened : List Nat} {offset : Nat} {t : Token}

theorem append {group : List Token} (h : Unclosed seen opened) (hgroup : Paired group) :
    Unclosed (seen ++ group) opened := by
  cases h with
  | none hseen => exact .none (hseen.append hgroup)
  | inside houter hp hinner =>
    rw [List.append_assoc, List.cons_append]
    exact .inside houter hp (hinner.append hgroup)

theorem opens (h : Unclosed seen opened) (ht : t.kind = .lParen) :
    Unclosed (seen ++ [t]) (t.offset :: opened) :=
  .inside h ht paired_nil

theorem closes (h : Unclosed seen (offset :: opened)) (ht : t.kind = .rParen) :
    Unclosed (seen ++ [t]) opened := by
  cases h with
  | inside houter hp hinner =>
    rw [List.append_assoc, List.cons_append]
    exact houter.append (.group hp hinner ht)

theorem unclosed_points (h : Unclosed seen (offset :: opened)) :
    (ParseError.unclosedParen offset).Points seen := by
  cases h with
  | @inside outer inner _ p _ hp hinner =>
    refine .unclosedParen (List.suffix_append outer _) hp ?_
    intro inside c hfront hc hin
    obtain ⟨rest, rfl⟩ := hfront
    rw [List.append_assoc] at hinner
    exact hin.not_closed hc hinner

theorem unexpected_points {ts : List Token} (h : Unclosed seen []) (ht : t.kind = .rParen) :
    (ParseError.unexpectedCloseParen t.offset).Points (seen ++ t :: ts) := by
  cases h with
  | none hseen =>
    refine .unexpectedCloseParen ⟨ts, List.append_assoc seen [t] ts⟩ ht ?_
    intro p inside hback hp hin
    obtain ⟨before, rfl⟩ := hback
    exact hin.not_opened hp hseen

end Unclosed

/-- An error of a line whose tokens `seen` have been read points into the whole line. -/
theorem typedTail_points {seen : List Token} {opened : List Nat} (tail ts : List Token)
    {e : ParseError} (hopen : Unclosed seen opened) (h : typedTail opened tail ts = .error e) :
    e.Points (seen ++ ts) := by
  induction ts generalizing seen opened tail with
  | nil =>
    rw [List.append_nil]
    cases opened with
    | nil => cases h
    | cons offset opened =>
      cases h
      exact hopen.unclosed_points
  | cons t ts ih =>
    have hcut : seen ++ t :: ts = seen ++ [t] ++ ts := by simp
    unfold typedTail at h
    split at h
    · next ht =>
      cases h
      exact .unterminatedString (List.mem_append_right seen List.mem_cons_self) ht
    · next ht =>
      rw [hcut]
      exact ih tail (hopen.opens ht) h
    · next ht =>
      split at h
      · cases h
        exact hopen.unexpected_points ht
      · rw [hcut]
        exact ih tail (hopen.closes ht) h
    · next _ hl hr =>
      rw [hcut]
      have hplain := hopen.append (paired_plain t hl hr)
      split at h
      · exact ih ts hplain h
      · exact ih tail hplain h

/-- A group that is not found is not there. -/
theorem unclosed_of_closeGroup? {all rest : List Token} {p : Token} (hall : p :: rest <:+ all)
    (hp : p.kind = .lParen) (h : closeGroup? 0 rest = none) :
    (ParseError.unclosedParen p.offset).Points all := by
  refine .unclosedParen hall hp ?_
  intro inside c hfront hc hin
  obtain ⟨behind, rfl⟩ := hfront
  rw [List.append_assoc] at h
  cases (closeGroup?_of_nesting 0 inside behind c hc (hin.nesting 0)).symm.trans h

theorem readLink_points {all ts : List Token} {atHead : Bool} {t : Token} (hall : t :: ts <:+ all)
    {e : ParseError} (h : readLink atHead t ts = .error e) : e.Points all := by
  unfold readLink at h
  dsimp only at h
  split at h
  · cases ts with
    | nil => cases h
    | cons p rest =>
      dsimp only at h
      split at h
      · next hp =>
        split at h
        · next hgroup =>
          cases h
          exact unclosed_of_closeGroup? ((List.suffix_cons t _).trans hall) hp hgroup
        · cases h
      · cases h
  · split at h
    · cases h
    · cases h
      exact .unexpectedToken (hall.subset List.mem_cons_self)

theorem readLinks_points {all ts : List Token} {atHead : Bool} (hall : ts <:+ all) {e : ParseError}
    (h : readLinks atHead ts = .error e) : e.Points all := by
  induction hn : ts.length using Nat.strongRecOn generalizing atHead ts with
  | ind n ih =>
    cases ts with
    | nil =>
      rw [readLinks] at h
      cases h
    | cons t ts =>
      rw [readLinks] at h
      split at h
      · next hlink =>
        cases h
        exact readLink_points hall hlink
      · cases h
      · next link d rest hlen hlink =>
        obtain ⟨used, hused, _⟩ := readLink_spelled atHead t ts _ hlink
        have hrest : d :: rest <:+ all := List.IsSuffix.trans ⟨used, hused.symm⟩ hall
        split at h
        · have hshorter : rest.length < n := by
            simp only [List.length_cons] at hlen hn
            omega
          exact ih rest.length hshorter ((List.suffix_cons d rest).trans hrest)
            ((map_error_iff _ _ _).1 h) rfl
        · cases h
          exact .unexpectedToken (hrest.subset List.mem_cons_self)

theorem takeStem_points {all : List Token} {links : List Link} {endsInDot : Bool} {e : ParseError}
    (h : takeStem links endsInDot = .error e) : e.Points all := by
  unfold takeStem at h
  split at h
  · cases h
  · split at h
    · cases h
    · split at h
      · cases h
      · cases h
        exact .missingMemberName

/-- The error of a call at the head of what is being typed, in front of a dot.  It names a
parenthesis and stands behind the call. -/
inductive ParseError.BehindCall (ts : List Token) : ParseError → Prop where
  | mk {t p c d : Token} {inside after : List Token}
      (htyped : Typed ts (t :: p :: (inside ++ c :: d :: after))) (ht : t.kind = .ident)
      (hp : p.kind = .lParen) (hin : Paired inside) (hc : c.kind = .rParen) (hd : d.kind = .dot) :
      BehindCall ts (.unexpectedToken "(" c.stop)

theorem exists_dot_behind {links : List Link} {ws : List (List Token)} {d : Token}
    (typed : List Token) (hlinks : List.Forall₂ Link.Dotted links ws) (hd : d.kind = .dot) :
    ∃ d' after, ws.flatten ++ d :: typed = d' :: after ∧ d'.kind = .dot := by
  cases hlinks with
  | nil => exact ⟨d, typed, rfl, hd⟩
  | cons hlink _ =>
    obtain ⟨d', w, rfl, hd', _⟩ := hlink
    exact ⟨d', _, rfl, hd'⟩

theorem toHead_behindCall {ts typed : List Token} {first : Link} {rest : List Link} {stem : String}
    (htyped : Typed ts typed) (hlinks : TypedLinks typed (first :: rest) stem) {e : ParseError}
    (h : first.toHead = .error e) : e.BehindCall ts := by
  cases hlinks with
  | links _ w _ ws d name _ hfirst hmore hd _ =>
    cases hfirst with
    | plain => cases h
    | call t p c inside ht hp hc hin =>
      cases h
      obtain ⟨d', after, hbehind, hd'⟩ := exists_dot_behind name hmore hd
      have hcall : Typed ts (t :: p :: (inside ++ c :: d' :: after)) := by
        simpa [hbehind] using htyped
      exact .mk hcall ht hp ((paired_iff inside).2 hin) hc hd'

theorem splitChain_error {line : String} {e : ParseError} (h : splitChain line = .error e) :
    e.Points (tokenize line) ∨ e.BehindCall (tokenize line) := by
  unfold splitChain at h
  rcases (bind_error_iff _ _ _).1 h with htail | ⟨typed, htail, h⟩
  · exact .inl (typedTail_points _ _ (.none paired_nil) htail)
  rcases (bind_error_iff _ _ _).1 h with hread | ⟨⟨all, endsInDot⟩, hread, h⟩
  · exact .inl (readLinks_points (typed_suffix htail) hread)
  rcases (bind_error_iff _ _ _).1 h with hstem | ⟨⟨links, stem⟩, hstem, h⟩
  · exact .inl (takeStem_points hstem)
  cases links with
  | nil => cases h
  | cons first rest =>
    rcases (bind_error_iff _ _ _).1 h with hhead | ⟨_, _, h⟩
    · have htyped := ((typedTail_iff [] [] _ _ typed rfl (candidate_begin _)).1 htail).2.2
      exact .inr (toHead_behindCall htyped
        ((typedLinks_iff _ _ _).1 ⟨all, endsInDot, hread, hstem⟩) hhead)
    · cases h

/-- Behind a called head a dot stands, and no parenthesis. -/
theorem ParseError.BehindCall.not_points {line : String} {e : ParseError}
    (h : e.BehindCall (tokenize line)) : ¬ e.Points (tokenize line) := by
  cases h with
  | @mk t p c d inside after htyped _ _ _ _ hd =>
    obtain ⟨before, hline, _⟩ := htyped
    have hmem : d ∈ tokenize line := by simp [hline]
    have hplace : d.offset = c.stop :=
      offset_behind line (before ++ t :: p :: inside) after c d (by simp [hline])
    have hdot : d.text = String.ofList ['.'] :=
      text_punctuation line d hmem '.' (by rw [hd]; rfl)
    rw [points_unexpectedToken]
    intro hpoints
    obtain ⟨u, hu, htext, hoffset⟩ := hpoints
    obtain rfl := token_eq_of_offset line u d hu hmem (hoffset.trans hplace.symm)
    rw [hdot] at htext
    exact absurd htext (by decide)

/-- What the errors of a line name stands where they point, in the splitter and in both parsers.  The
one exception is the error of a called head. -/
theorem errors_point (line : String) (e : ParseError) :
    (splitChain line = .error e →
      (e.Points (tokenize line) ↔ ¬ e.BehindCall (tokenize line))) ∧
    (parseExpression line = .error e → e.Points (tokenize line)) ∧
    (parseStatement line = .error e → e.Points (tokenize line)) := by
  refine ⟨?_, parseExpression_points, parseStatement_points⟩
  intro h
  exact ⟨fun hpoints hcall => hcall.not_points hpoints, (splitChain_error h).resolve_right⟩

/-- A string that does not end, behind a blank. -/
theorem errors_point_string :
    splitChain " 'é" = .error (.unterminatedString 1) ∧
      parseExpression " 'é" = .error (.unterminatedString 1) ∧
      parseStatement " 'é" = .error (.unterminatedString 1) ∧
      (ParseError.unterminatedString 1).Points (tokenize " 'é") := by
  have hexpr : parseExpression " 'é" = .error (.unterminatedString 1) := by
    with_unfolding_all rfl
  have hstatement : parseStatement " 'é" = .error (.unterminatedString 1) := by
    with_unfolding_all rfl
  exact ⟨by decide +kernel, hexpr, hstatement, (errors_point " 'é" _).2.1 hexpr⟩

/-- The error of a called head names a parenthesis where none stands. -/
theorem called_head_points_behind :
    splitChain "print(x).y" = .error (.unexpectedToken "(" 8) ∧
      ¬ ∃ t ∈ tokenize "print(x).y", t.text = "(" ∧ t.offset = 8 := by
  constructor
  · decide +kernel
  · decide +kernel

end ScriptConsole
