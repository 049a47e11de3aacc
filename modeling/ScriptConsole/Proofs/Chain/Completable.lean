import ScriptConsole.Proofs.Chain.Layout

namespace ScriptConsole

/-- The last of the tokens ends an expression and stands outside all parentheses. -/
def Boundary (front : List Token) : Prop :=
  ∃ inner t, front = inner ++ [t] ∧ t.kind.endsExpression ∧ Paired inner

theorem boundary_concat (inner : List Token) (t : Token) :
    Boundary (inner ++ [t]) ↔ t.kind.endsExpression ∧ Paired inner := by
  constructor
  · rintro ⟨inner', t', h, ht, hp⟩
    obtain ⟨rfl, ht'⟩ := List.append_inj' h rfl
    cases ht'
    exact ⟨ht, hp⟩
  · rintro ⟨ht, hp⟩
    exact ⟨inner, t, rfl, ht, hp⟩

/-- `typed` is what stands behind the last boundary of `ts`, and all of `ts` when it has none. -/
def Typed (ts typed : List Token) : Prop :=
  ∃ before, ts = before ++ typed ∧ (before = [] ∨ Boundary before) ∧
    ∀ front, front <+: ts → Boundary front → front.length ≤ before.length

theorem typed_unique (ts typed typed' : List Token) (h : Typed ts typed) (h' : Typed ts typed') :
    typed = typed' := by
  -- neither part in front is the longer one
  have shorter : ∀ a b : List Token, a <+: ts → (a = [] ∨ Boundary a) →
      (∀ front, front <+: ts → Boundary front → front.length ≤ b.length) →
      a.length ≤ b.length := by
    rintro a b ha (rfl | hb) hlast
    · exact Nat.zero_le _
    · exact hlast a ha hb
  obtain ⟨before, rfl, hb, hlast⟩ := h
  obtain ⟨before', hts, hb', hlast'⟩ := h'
  have hle := shorter before before' (List.prefix_append _ _) hb hlast'
  have hge := shorter before' before ⟨typed', hts.symm⟩ hb' hlast
  exact (List.append_inj hts (Nat.le_antisymm hle hge)).2

/-- When `seen` has been read and `ts` is left, `tail` stands behind the last boundary read. -/
def Candidate (seen ts tail : List Token) : Prop :=
  ∃ before, seen ++ ts = before ++ tail ∧ (before = [] ∨ Boundary before) ∧
    ∀ front, front <+: seen → Boundary front → front.length ≤ before.length

theorem candidate_begin (ts : List Token) : Candidate [] ts ts := by
  refine ⟨[], rfl, .inl rfl, ?_⟩
  intro front hf _
  exact hf.length_le

theorem candidate_end (seen tail : List Token) : Candidate seen [] tail ↔ Typed seen tail := by
  simp [Candidate, Typed]

theorem candidate_boundary (seen ts : List Token) (t : Token) (h : Boundary (seen ++ [t])) :
    Candidate (seen ++ [t]) ts ts :=
  ⟨seen ++ [t], rfl, .inr h, fun _ hf _ => hf.length_le⟩

theorem candidate_step (seen ts tail : List Token) (t : Token) (h : Candidate seen (t :: ts) tail)
    (ht : ¬ Boundary (seen ++ [t])) : Candidate (seen ++ [t]) ts tail := by
  obtain ⟨before, hcut, hb, hlast⟩ := h
  refine ⟨before, by rw [← hcut]; simp, hb, ?_⟩
  intro front hf hfront
  obtain rfl | hf := List.prefix_concat_iff.1 hf
  · exact (ht hfront).elim
  · exact hlast front hf hfront

theorem typedTail_nil_iff (seen : List Token) (opened : List Nat) (tail typed : List Token)
    (hopen : nesting 0 (terminals seen) = some opened.length) (htail : Candidate seen [] tail) :
    typedTail opened tail [] = .ok typed ↔ Paired seen ∧ Typed seen typed := by
  rw [paired_iff, Balanced, hopen]
  cases opened with
  | nil =>
    have htyped := (candidate_end seen tail).1 htail
    constructor
    · intro h
      cases h
      exact ⟨rfl, htyped⟩
    · rintro ⟨_, h⟩
      rw [typed_unique seen typed tail h htyped]
      rfl
  | cons offset opened =>
    constructor
    · intro h
      cases h
    · rintro ⟨hpaired, _⟩
      cases hpaired

/-- The tokens being typed are found exactly when all strings end and all parentheses are
paired. -/
theorem typedTail_iff (seen : List Token) (opened : List Nat) (tail ts typed : List Token)
    (hopen : nesting 0 (terminals seen) = some opened.length) (htail : Candidate seen ts tail) :
    typedTail opened tail ts = .ok typed ↔
      (∀ t ∈ ts, t.kind ≠ .unterminatedString) ∧ Paired (seen ++ ts) ∧ Typed (seen ++ ts) typed := by
  induction ts generalizing seen opened tail with
  | nil => simpa using typedTail_nil_iff seen opened tail typed hopen htail
  | cons t ts ih =>
    have hcut : seen ++ t :: ts = seen ++ [t] ++ ts := by simp
    have hnest : nesting 0 (terminals (seen ++ [t])) = nesting opened.length (terminals [t]) := by
      rw [terminals_append, nesting_append, hopen]
      rfl
    have next : ∀ (opened' : List Nat) (tail' : List Token), t.kind ≠ .unterminatedString →
        nesting opened.length (terminals [t]) = some opened'.length →
        Candidate (seen ++ [t]) ts tail' →
        (typedTail opened' tail' ts = .ok typed ↔
          (∀ u ∈ t :: ts, u.kind ≠ .unterminatedString) ∧ Paired (seen ++ t :: ts) ∧
            Typed (seen ++ t :: ts) typed) := by
      intro opened' tail' hk hopen' htail'
      rw [ih (seen ++ [t]) opened' tail' (hnest.trans hopen') htail', hcut, List.forall_mem_cons]
      exact ⟨fun h => ⟨⟨hk, h.1⟩, h.2⟩, fun h => ⟨h.1.2, h.2⟩⟩
    have stay : ¬ (t.kind.endsExpression ∧ Paired seen) → Candidate (seen ++ [t]) ts tail :=
      fun h => candidate_step seen ts tail t htail ((boundary_concat seen t).not.2 h)
    unfold typedTail
    split
    · next hk =>
      constructor
      · intro h
        cases h
      · rintro ⟨hends, _⟩
        exact (hends t List.mem_cons_self hk).elim
    · next hk =>
      exact next _ tail (by simp [hk]) (nesting_open _ t [] hk)
        (stay (by simp [hk, TokenKind.endsExpression]))
    · next hk =>
      split
      · constructor
        · intro h
          cases h
        · rintro ⟨_, hpaired, _⟩
          rw [paired_iff, Balanced, terminals_append, nesting_append, hopen] at hpaired
          cases (nesting_close_unopened t ts hk).symm.trans hpaired
      · next offset opened =>
        exact next opened tail (by simp [hk]) (nesting_close opened.length t [] hk)
          (stay (by simp [hk, TokenKind.endsExpression]))
    · next hu hl hr =>
      have hplain : nesting opened.length (terminals [t]) = some opened.length :=
        (nesting_plain _ t [] hl hr).trans (nesting_nil _)
      have houtside : Paired seen ↔ opened = [] := by
        rw [paired_iff, Balanced, hopen]
        simp
      have hcond : (opened.isEmpty && t.kind.endsExpression) = true ↔
          t.kind.endsExpression ∧ Paired seen := by
        rw [houtside]
        simp [and_comm]
      split
      · next h =>
        exact next opened ts hu hplain
          (candidate_boundary seen ts t ((boundary_concat seen t).2 (hcond.1 h)))
      · next h => exact next opened tail hu hplain (stay fun h' => h (hcond.2 h'))

/-- A name, or a name with a group of tokens in parentheses right behind it. -/
inductive SegmentTokens : List Token → Prop where
  | field (t : Token) (ht : t.kind = .ident) : SegmentTokens [t]
  | call (t p c : Token) (inside : List Token) (ht : t.kind = .ident) (hp : p.kind = .lParen)
      (hc : c.kind = .rParen) (hin : Paired inside) : SegmentTokens (t :: p :: (inside ++ [c]))

/-- Nothing, a name, or a head and segments with a dot in front of each and behind them, and then
perhaps a name. -/
inductive ChainTokens : List Token → Prop where
  | nothing : ChainTokens []
  | name (t : Token) (ht : t.kind = .ident) : ChainTokens [t]
  | chain (head dot : Token) (segments : List (List Token)) (stem : List Token)
      (hhead : head.kind = .ident ∨ head.kind.isLiteral)
      (hsegments : ∀ w ∈ segments, ∃ d w', w = d :: w' ∧ d.kind = .dot ∧ SegmentTokens w')
      (hdot : dot.kind = .dot) (hstem : stem = [] ∨ ∃ t, stem = [t] ∧ t.kind = .ident) :
      ChainTokens (head :: (segments.flatten ++ dot :: stem))

section Map
variable (f : Token → Token) (hf : ∀ t, (f t).kind = t.kind)
include hf

theorem Paired.map {ts : List Token} (h : Paired ts) : Paired (ts.map f) := by
  have hopen (us : List Token) : openings (us.map f) = openings us := by
    simp [openings, List.countP_map, Function.comp_def, hf]
  have hclose (us : List Token) : closings (us.map f) = closings us := by
    simp [closings, List.countP_map, Function.comp_def, hf]
  refine ⟨?_, by rw [hopen, hclose, h.total]⟩
  intro front hfront
  obtain ⟨us, hus, rfl⟩ := List.prefix_map_iff.1 hfront
  rw [hopen, hclose]
  exact h.fronts us hus

theorem SegmentTokens.map {w : List Token} (h : SegmentTokens w) : SegmentTokens (w.map f) := by
  cases h with
  | field t ht => exact .field (f t) ((hf t).trans ht)
  | call t p c inside ht hp hc hin =>
    rw [List.map_cons, List.map_cons, List.map_append]
    exact .call (f t) (f p) (f c) _ ((hf t).trans ht) ((hf p).trans hp) ((hf c).trans hc)
      (hin.map f hf)

theorem ChainTokens.map {ts : List Token} (h : ChainTokens ts) : ChainTokens (ts.map f) := by
  cases h with
  | nothing => exact .nothing
  | name t ht => exact .name (f t) ((hf t).trans ht)
  | chain head dot segments stem hhead hsegments hdot hstem =>
    have hchain : ChainTokens (f head :: ((segments.map (List.map f)).flatten ++
        f dot :: stem.map f)) := by
      refine .chain _ _ _ _ (by rwa [hf]) ?_ ((hf dot).trans hdot) ?_
      · intro v hv
        obtain ⟨w, hw, rfl⟩ := List.mem_map.1 hv
        obtain ⟨d, w', rfl, hd, hsegment⟩ := hsegments w hw
        exact ⟨f d, w'.map f, rfl, (hf d).trans hd, hsegment.map f hf⟩
      · obtain rfl | ⟨t, rfl, ht⟩ := hstem
        · exact .inl rfl
        · exact .inr ⟨f t, rfl, (hf t).trans ht⟩
    simpa [List.map_flatten] using hchain

end Map

theorem segmentTokens_iff (w : List Token) :
    SegmentTokens w ↔ ∃ l : Link, l.Spelled false w := by
  constructor
  · intro h
    cases h with
    | field t ht => exact ⟨_, .plain t (.inl ht)⟩
    | call t p c inside ht hp hc hin =>
      exact ⟨_, .call t p c inside ht hp hc ((paired_iff inside).1 hin)⟩
  · rintro ⟨l, h⟩
    cases h with
    | plain t ht =>
      obtain ht | ⟨hf, _⟩ := ht
      · exact .field t ht
      · cases hf
    | call t p c inside ht hp hc hin =>
      exact .call t p c inside ht hp hc ((paired_iff inside).2 hin)

theorem exists_forall₂_iff {α β : Type} (R : α → β → Prop) (ys : List β) :
    (∃ xs, List.Forall₂ R xs ys) ↔ ∀ y ∈ ys, ∃ x, R x y := by
  induction ys with
  | nil => simp
  | cons y ys ih =>
    rw [List.forall_mem_cons, ← ih]
    constructor
    · rintro ⟨_, h⟩
      obtain ⟨x, xs, hx, hxs, rfl⟩ := List.forall₂_cons_right_iff.1 h
      exact ⟨⟨x, hx⟩, xs, hxs⟩
    · rintro ⟨⟨x, hx⟩, xs, hxs⟩
      exact ⟨x :: xs, .cons hx hxs⟩

theorem exists_dotted_iff (ws : List (List Token)) :
    (∃ links, List.Forall₂ Link.Dotted links ws) ↔
      ∀ w ∈ ws, ∃ d w', w = d :: w' ∧ d.kind = .dot ∧ SegmentTokens w' := by
  simp only [exists_forall₂_iff, Link.Dotted, segmentTokens_iff]
  constructor
  · intro h w hw
    obtain ⟨l, d, w', rfl, hd, hl⟩ := h w hw
    exact ⟨d, w', rfl, hd, l, hl⟩
  · intro h w hw
    obtain ⟨d, w', rfl, hd, l, hl⟩ := h w hw
    exact ⟨l, d, w', rfl, hd, hl⟩

theorem exists_stem_iff (w : List Token) :
    (∃ stem, Stem stem w) ↔ w = [] ∨ ∃ t, w = [t] ∧ t.kind = .ident := by
  constructor
  · rintro ⟨stem, h⟩
    cases h with
    | empty => exact .inl rfl
    | name t ht => exact .inr ⟨t, rfl, ht⟩
  · rintro (rfl | ⟨t, rfl, ht⟩)
    · exact ⟨"", .empty⟩
    · exact ⟨t.text, .name t ht⟩

/-- Of the tokens that have links and a name being typed, those whose first link is not called. -/
theorem chainTokens_iff (w : List Token) :
    ChainTokens w ↔
      ∃ links stem, TypedLinks w links stem ∧ ∀ first ∈ links.head?, first.arguments = none := by
  constructor
  · intro h
    cases h with
    | nothing => exact ⟨[], "", .stem [] "" .empty, by simp⟩
    | name t ht => exact ⟨[], t.text, .stem [t] _ (.name t ht), by simp⟩
    | chain head dot segments stem hhead hsegments hdot hstem =>
      obtain ⟨links, hlinks⟩ := (exists_dotted_iff segments).2 hsegments
      obtain ⟨name, hname⟩ := (exists_stem_iff stem).2 hstem
      have hfirst : Link.Spelled true _ [head] := .plain head (hhead.imp_right fun h => ⟨rfl, h⟩)
      exact ⟨_, name, .links _ [head] links segments dot stem name hfirst hlinks hdot hname,
        by simp⟩
  · rintro ⟨links, stem, h, hfirst⟩
    cases h with
    | stem _ _ hstem =>
      obtain rfl | ⟨t, rfl, ht⟩ := (exists_stem_iff w).1 ⟨stem, hstem⟩
      · exact .nothing
      · exact .name t ht
    | links first v more ws d typed _ hv hm hd hstem =>
      have hstem := (exists_stem_iff typed).1 ⟨stem, hstem⟩
      have hws := (exists_dotted_iff ws).1 ⟨more, hm⟩
      cases hv with
      | plain t ht => exact .chain t d ws typed (ht.imp_right And.right) hws hd hstem
      | call => cases hfirst _ rfl

/-- All strings end, all parentheses are paired, and the part being typed is a chain. -/
structure Completable (line : String) : Prop where
  strings : ∀ t ∈ tokenize line, t.kind ≠ .unterminatedString
  parentheses : Paired (tokenize line)
  chain : ∃ typed, Typed (tokenize line) typed ∧ ChainTokens typed

theorem exists_splitChain_iff (line : String) :
    (∃ chain, splitChain line = .ok chain) ↔
      ∃ typed, typedTail [] (tokenize line) (tokenize line) = .ok typed ∧ ChainTokens typed := by
  simp only [chainTokens_iff, splitChain_iff]
  constructor
  · rintro ⟨chain, typed, links, htyped, hlinks, _, hshape⟩
    refine ⟨typed, htyped, links, chain.stem, hlinks, ?_⟩
    obtain ⟨rfl, _⟩ | ⟨first, rest, rfl, hfirst, _⟩ := hshape
    · simp
    · intro l hl
      cases hl
      rw [Link.toHead] at hfirst
      split at hfirst
      · cases hfirst
      · next h => exact h
  · rintro ⟨typed, htyped, links, stem, hlinks, hfirst⟩
    cases links with
    | nil =>
      exact ⟨⟨_, .topLevel, ⟨_, _⟩, [], stem⟩, typed, [], htyped, hlinks, rfl,
        .inl ⟨rfl, rfl, rfl, rfl⟩⟩
    | cons first rest =>
      obtain ⟨head, hhead⟩ : ∃ head, first.toHead = .ok head := by
        rw [Link.toHead, hfirst first rfl]
        exact ⟨_, rfl⟩
      exact ⟨⟨_, head, first.span, rest.map Link.toSegment, stem⟩, typed, _, htyped, hlinks, rfl,
        .inr ⟨first, rest, rfl, hhead, rfl, rfl⟩⟩

/-- The splitter accepts the lines that can be completed and rejects all others. -/
theorem splitChain_accepts (line : String) :
    ((∃ chain, splitChain line = .ok chain) ↔ Completable line) ∧
      ((∃ e, splitChain line = .error e) ↔ ¬ Completable line) := by
  have haccept : (∃ chain, splitChain line = .ok chain) ↔ Completable line := by
    rw [exists_splitChain_iff]
    have htail := fun typed => typedTail_iff [] [] (tokenize line) (tokenize line) typed rfl
      (candidate_begin (tokenize line))
    simp only [List.nil_append] at htail
    constructor
    · rintro ⟨typed, htyped, hchain⟩
      obtain ⟨hstrings, hpaired, htyped⟩ := (htail typed).1 htyped
      exact ⟨hstrings, hpaired, typed, htyped, hchain⟩
    · rintro ⟨hstrings, hpaired, typed, htyped, hchain⟩
      exact ⟨typed, (htail typed).2 ⟨hstrings, hpaired, htyped⟩, hchain⟩
  refine ⟨haccept, ?_⟩
  rw [← haccept]
  cases splitChain line with
  | ok chain => simp
  | error e => simp

end ScriptConsole
