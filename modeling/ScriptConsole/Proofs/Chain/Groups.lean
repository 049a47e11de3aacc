import ScriptConsole.Proofs.Chain.Completable
import ScriptConsole.Proofs.Chain.Spans

namespace ScriptConsole

theorem Typed.paired {ts typed : List Token} (h : Typed ts typed) (hts : Paired ts) :
    Paired typed := by
  obtain ⟨before, rfl, hbefore, _⟩ := h
  refine Paired.behind ?_ hts
  obtain rfl | ⟨inner, t, rfl, ht, hinner⟩ := hbefore
  · exact paired_nil
  · -- a parenthesis does not end an expression
    refine hinner.append (paired_plain t ?_ ?_)
    all_goals
      intro hk
      simp [hk, TokenKind.endsExpression] at ht

theorem Link.Spelled.paired {atHead : Bool} {l : Link} {w : List Token} (h : l.Spelled atHead w) :
    Paired w := by
  cases h with
  | plain t ht =>
    obtain ht | ⟨_, ht⟩ := ht
    · exact paired_plain t (by simp [ht]) (by simp [ht])
    · refine paired_plain t ?_ ?_
      all_goals
        intro hk
        simp [hk, TokenKind.isLiteral] at ht
  | call t p c inside ht hp hc hin =>
    have hgroup := Paired.group hp ((paired_iff inside).2 hin) hc
    exact (paired_plain t (by simp [ht]) (by simp [ht])).append hgroup

/-- Where links are read from these tokens on, the end of the group that `p` opens is looked for in
the tokens `behind`. -/
inductive Searches (p : Token) (behind : List Token) : Bool → List Token → Prop where
  | here {atHead : Bool} {t : Token} (ht : t.kind = .ident) (hp : p.kind = .lParen) :
      Searches p behind atHead (t :: p :: behind)
  | later {atHead : Bool} {t d : Token} {ts rest : List Token} {link : Link}
      {hlen : (d :: rest).length ≤ ts.length}
      (hlink : readLink atHead t ts = .ok ⟨link, d :: rest, hlen⟩) (hd : d.kind = .dot)
      (hrest : Searches p behind false rest) : Searches p behind atHead (t :: ts)

section Links
variable {atHead : Bool} {t : Token} {ts : List Token}

theorem readLink_searched {r : LinkRead ts} (h : readLink atHead t ts = .ok r) {args : Arguments}
    (hargs : r.link.arguments = some args) :
    ∃ p behind g, Searches p behind atHead (t :: ts) ∧ closeGroup? 0 behind = some g ∧
      args = ⟨sourceOf g.inside, ⟨p.stop, g.close.offset⟩⟩ := by
  obtain ⟨link, rest, hlen⟩ := r
  obtain ⟨w, hw, hlink⟩ := readLink_spelled atHead t ts _ h
  cases hlink with
  | plain => cases hargs
  | call t p c inside ht hp hc hin =>
    cases hargs
    simp only [List.cons_append, List.append_assoc, List.nil_append, List.cons.injEq] at hw
    obtain ⟨rfl, rfl⟩ := hw
    exact ⟨p, _, ⟨inside, c, rest⟩, .here ht hp, closeGroup?_of_nesting 0 inside rest c hc hin, rfl⟩

theorem readLink_unclosed {offset : Nat}
    (h : readLink atHead t ts = .error (.unclosedParen offset)) :
    ∃ p behind, Searches p behind atHead (t :: ts) ∧ closeGroup? 0 behind = none ∧
      p.offset = offset := by
  unfold readLink at h
  dsimp only at h
  split at h
  · next ht =>
    cases ts with
    | nil => cases h
    | cons p behind =>
      dsimp only at h
      split at h
      · next hp =>
        split at h
        · next hnone =>
          cases h
          exact ⟨p, behind, .here ht hp, hnone, rfl⟩
        · cases h
      · cases h
  · split at h <;> cases h

theorem readLink_of_none {p : Token} {behind : List Token} (ht : t.kind = .ident)
    (hp : p.kind = .lParen) (hnone : closeGroup? 0 behind = none) :
    readLink atHead t (p :: behind) = .error (.unclosedParen p.offset) := by
  unfold readLink
  rw [if_pos ht]
  dsimp only
  rw [if_pos hp]
  split
  · rfl
  · next g hg => cases hnone.symm.trans hg

theorem readLinks_first {r : LinkRead ts} (hlink : readLink atHead t ts = .ok r)
    {links : List Link} {endsInDot : Bool}
    (h : readLinks atHead (t :: ts) = .ok (links, endsInDot)) : ∃ more, links = r.link :: more := by
  obtain ⟨link, rest, hlen⟩ := r
  rw [readLinks, hlink] at h
  cases rest with
  | nil =>
    cases h
    exact ⟨[], rfl⟩
  | cons d rest =>
    dsimp only at h
    split at h
    · obtain ⟨⟨more, _⟩, _, heq⟩ := (map_ok_iff _ _ _).1 h
      cases heq
      exact ⟨more, rfl⟩
    · cases h

end Links

theorem readLinks_searched {atHead : Bool} {ts : List Token} {links : List Link} {endsInDot : Bool}
    (h : readLinks atHead ts = .ok (links, endsInDot)) {l : Link} (hl : l ∈ links)
    {args : Arguments} (hargs : l.arguments = some args) :
    ∃ p behind g, Searches p behind atHead ts ∧ closeGroup? 0 behind = some g ∧
      args = ⟨sourceOf g.inside, ⟨p.stop, g.close.offset⟩⟩ := by
  fun_induction readLinks atHead ts generalizing links endsInDot with
  | case1 =>
    cases h
    cases hl
  | case2 => cases h
  | case3 atHead t ts link hlen hlink =>
    cases h
    obtain rfl := List.mem_singleton.1 hl
    exact readLink_searched hlink hargs
  | case4 atHead t ts link d rest hlen hlink hd ih =>
    obtain ⟨⟨more, e⟩, hmore, heq⟩ := (map_ok_iff _ _ _).1 h
    cases heq
    obtain rfl | hl := List.mem_cons.1 hl
    · exact readLink_searched hlink hargs
    · obtain ⟨p, behind, g, hsearch, hfound⟩ := ih hmore hl
      exact ⟨p, behind, g, .later hlink hd hsearch, hfound⟩
  | case5 => cases h

theorem readLinks_unclosed {atHead : Bool} {ts : List Token} {offset : Nat}
    (h : readLinks atHead ts = .error (.unclosedParen offset)) :
    ∃ p behind, Searches p behind atHead ts ∧ closeGroup? 0 behind = none ∧
      p.offset = offset := by
  fun_induction readLinks atHead ts with
  | case1 => cases h
  | case2 atHead t ts e hlink =>
    cases h
    exact readLink_unclosed hlink
  | case3 => cases h
  | case4 atHead t ts link d rest hlen hlink hd ih =>
    obtain ⟨p, behind, hsearch, hnone⟩ := ih ((map_error_iff _ _ _).1 h)
    exact ⟨p, behind, .later hlink hd hsearch, hnone⟩
  | case5 => cases h

theorem Searches.unclosed {p : Token} {behind : List Token} {atHead : Bool} {ts : List Token}
    (h : Searches p behind atHead ts) (hnone : closeGroup? 0 behind = none) :
    readLinks atHead ts = .error (.unclosedParen p.offset) := by
  induction h with
  | here ht hp => rw [readLinks, readLink_of_none ht hp hnone]
  | later hlink hd _ ih =>
    rw [readLinks, hlink]
    simp only [hd, if_true]
    rw [ih]
    rfl

theorem Searches.exists_link {p : Token} {behind : List Token} {atHead : Bool} {ts : List Token}
    (h : Searches p behind atHead ts) {g : Group} (hfound : closeGroup? 0 behind = some g)
    {links : List Link} {endsInDot : Bool} (hread : readLinks atHead ts = .ok (links, endsInDot)) :
    ∃ l ∈ links, l.arguments = some ⟨sourceOf g.inside, ⟨p.stop, g.close.offset⟩⟩ := by
  induction h generalizing links endsInDot with
  | here ht hp =>
    obtain ⟨_, hlink⟩ := readLink_of_some ht hp hfound
    obtain ⟨more, rfl⟩ := readLinks_first hlink hread
    exact ⟨_, List.mem_cons_self, rfl⟩
  | later hlink hd _ ih =>
    rw [readLinks, hlink] at hread
    simp only [hd, if_true] at hread
    obtain ⟨⟨more, _⟩, hmore, heq⟩ := (map_ok_iff _ _ _).1 hread
    cases heq
    obtain ⟨l, hl, hargs⟩ := ih hmore
    exact ⟨l, List.mem_cons_of_mem _ hl, hargs⟩

/-- A search begins behind a name, and everything in front of the name is paired. -/
theorem Searches.placed {p : Token} {behind : List Token} {atHead : Bool} {ts : List Token}
    (h : Searches p behind atHead ts) :
    ∃ front t, ts = front ++ t :: p :: behind ∧ Paired front ∧ t.kind = .ident ∧
      p.kind = .lParen := by
  induction h with
  | @here _ t ht hp => exact ⟨[], t, rfl, paired_nil, ht, hp⟩
  | @later _ t d ts rest link hlen hlink hd _ ih =>
    obtain ⟨front, u, rfl, hfront, hu, hp⟩ := ih
    obtain ⟨w, hw, hspelled⟩ := readLink_spelled _ _ _ _ hlink
    have hdot : Paired [d] := paired_plain d (by simp [hd]) (by simp [hd])
    refine ⟨w ++ d :: front, u, ?_, hspelled.paired.append (hdot.append hfront), hu, hp⟩
    simpa using hw

/-- The group `g` begins with `p`, in front of the tokens `behind`, and its end is what the search
finds. -/
structure Group.Closes (g : Group) (p : Token) (behind : List Token) : Prop where
  opens : p.kind = .lParen
  found : closeGroup? 0 behind = some g
  place : behind = g.inside ++ g.close :: g.rest
  closes : g.close.kind = .rParen
  /-- Behind each front of the inside, `p` and `d` further parentheses are open, and the search goes
  on at the depth `d`.  So the next parenthesis that it closes is open. -/
  depth : ∀ front more, behind = front ++ more → front <+: g.inside →
    ∃ d, openings (p :: front) = closings (p :: front) + (d + 1) ∧
      closeGroup? 0 behind = (closeGroup? d more).map (.behind front)
  /-- The parenthesis found is the one that closes `p`. -/
  balanced : openings (p :: (g.inside ++ [g.close])) = closings (p :: (g.inside ++ [g.close]))
  ordered : p.stop ≤ g.close.offset

theorem exists_group {p : Token} {behind : List Token} (hp : p.kind = .lParen)
    (h : Paired (p :: behind)) :
    ∃ g, closeGroup? 0 behind = some g ∧ behind = g.inside ++ g.close :: g.rest ∧
      g.close.kind = .rParen ∧ Paired g.inside := by
  rw [paired_iff, Balanced, nesting_open 0 p behind hp] at h
  obtain ⟨g, hg⟩ := exists_closeGroup? h
  obtain ⟨hplace, hclose, hinside⟩ := closeGroup?_some 0 behind g hg
  exact ⟨g, hg, hplace, hclose, (paired_iff g.inside).2 hinside⟩

theorem Searches.exists_closes {line : String} {before typed : List Token} {p : Token}
    {behind : List Token} {atHead : Bool} (h : Searches p behind atHead typed)
    (hline : tokenize line = before ++ typed) (htyped : Paired typed) :
    ∃ (front : List Token) (g : Group), typed = front ++ p :: behind ∧ g.Closes p behind := by
  obtain ⟨front, t, rfl, hfront, ht, hp⟩ := h.placed
  have hname : Paired [t] := paired_plain t (by simp [ht]) (by simp [ht])
  have hpaired : Paired (p :: behind) := hname.behind (hfront.behind htyped)
  obtain ⟨g, hfound, hplace, hclose, hinside⟩ := exists_group hp hpaired
  have hcall : tokenize line = (before ++ front) ++ t :: p :: (g.inside ++ g.close :: g.rest) := by
    rw [hline, hplace, List.append_assoc]
  refine ⟨front ++ [t], g, by simp, hp, hfound, hplace, hclose, ?_, ?_,
    (arguments_hold line _ t p g.close g.inside g.rest hcall hp hclose).1.le⟩
  · intro f more hcut hf
    obtain ⟨d, hd, hnest⟩ := nesting_front hinside hf
    obtain ⟨ho, hc⟩ := openings_cons_open hp f
    refine ⟨d, by omega, ?_⟩
    rw [hcut]
    exact closeGroup?_front more hnest
  · exact (Paired.group hp hinside hclose).total

/-- Once the parentheses of a line have been checked, each search for the end of a call begins at an
opening parenthesis of what is being typed and finds the one that closes it.  So no parenthesis of
the links is found to be open, and no arguments end in front of where they begin.  The searches are
those that the links come from: whatever is read, a parenthesis is found to be open exactly where
one of them fails, and the arguments of the links are exactly what they find. -/
theorem searches_succeed (line : String) (typed : List Token)
    (h : typedTail [] (tokenize line) (tokenize line) = .ok typed) :
    (∀ p behind, Searches p behind true typed →
      ∃ (front : List Token) (g : Group), typed = front ++ p :: behind ∧ g.Closes p behind) ∧
    (∀ offset, readLinks true typed ≠ .error (.unclosedParen offset)) ∧
    (∀ links endsInDot, readLinks true typed = .ok (links, endsInDot) → ∀ l ∈ links,
      ∀ args, l.arguments = some args → args.span.start ≤ args.span.stop) ∧
    (∀ atHead ts offset, readLinks atHead ts = .error (.unclosedParen offset) ↔
      ∃ p behind, Searches p behind atHead ts ∧ closeGroup? 0 behind = none ∧
        p.offset = offset) ∧
    ∀ atHead ts links endsInDot, readLinks atHead ts = .ok (links, endsInDot) →
      ∀ args, (∃ l ∈ links, l.arguments = some args) ↔
        ∃ p behind g, Searches p behind atHead ts ∧ closeGroup? 0 behind = some g ∧
          args = ⟨sourceOf g.inside, ⟨p.stop, g.close.offset⟩⟩ := by
  obtain ⟨_, hline, htyped⟩ := (typedTail_iff [] [] _ _ typed rfl (candidate_begin _)).1 h
  have hpaired : Paired typed := htyped.paired hline
  obtain ⟨before, hcut, _⟩ := htyped
  have hsearch : ∀ p behind, Searches p behind true typed →
      ∃ (front : List Token) (g : Group), typed = front ++ p :: behind ∧ g.Closes p behind :=
    fun p behind hs => hs.exists_closes hcut hpaired
  refine ⟨hsearch, ?_, ?_, ?_, ?_⟩
  · intro offset hopen
    obtain ⟨p, behind, hs, hnone, _⟩ := readLinks_unclosed hopen
    obtain ⟨_, g, _, hg⟩ := hsearch p behind hs
    cases hg.found.symm.trans hnone
  · intro links endsInDot hread l hl args hargs
    obtain ⟨p, behind, g, hs, hfound, rfl⟩ := readLinks_searched hread hl hargs
    obtain ⟨_, g', _, hg⟩ := hsearch p behind hs
    cases hg.found.symm.trans hfound
    exact hg.ordered
  · intro atHead ts offset
    constructor
    · exact readLinks_unclosed
    · rintro ⟨p, behind, hs, hnone, rfl⟩
      exact hs.unclosed hnone
  · intro atHead ts links endsInDot hread args
    constructor
    · rintro ⟨l, hl, hargs⟩
      exact readLinks_searched hread hl hargs
    · rintro ⟨p, behind, g, hs, hfound, rfl⟩
      exact hs.exists_link hfound hread

/-- Behind an assignment and a dot, the end of a call with a group in its arguments. -/
theorem searches_succeed_nested :
    ∃ (typed behind : List Token) (p : Token) (g : Group),
      typedTail [] (tokenize "x = s.at((y)).le") (tokenize "x = s.at((y)).le") = .ok typed ∧
      Searches p behind true typed ∧ g.Closes p behind ∧ p.offset = 8 ∧ g.close.offset = 12 := by
  have htyped : typedTail [] (tokenize "x = s.at((y)).le") (tokenize "x = s.at((y)).le") =
      .ok [⟨.ident, "s", 4⟩, ⟨.dot, ".", 5⟩, ⟨.ident, "at", 6⟩, ⟨.lParen, "(", 8⟩,
        ⟨.lParen, "(", 9⟩, ⟨.ident, "y", 10⟩, ⟨.rParen, ")", 11⟩, ⟨.rParen, ")", 12⟩,
        ⟨.dot, ".", 13⟩, ⟨.ident, "le", 14⟩] := by
    decide +kernel
  obtain ⟨_, g, _, hg⟩ := (searches_succeed _ _ htyped).1 _ _ (.later rfl rfl (.here rfl rfl))
  refine ⟨_, _, _, g, htyped, .later rfl rfl (.here rfl rfl), hg, rfl, ?_⟩
  cases hg.found
  rfl

end ScriptConsole
