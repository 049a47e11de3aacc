import Mathlib.Data.List.Forall2
import ScriptConsole.Expr.Parser
import ScriptConsole.Proofs.Chain.Nesting
import ScriptConsole.Proofs.Success
import ScriptConsole.Proofs.Token.Cut
import ScriptConsole.Proofs.Token.Spelling

namespace ScriptConsole

/-- The tokens of a link.  Only the head of a chain may be a literal. -/
inductive Link.Spelled (atHead : Bool) : Link → List Token → Prop where
  | plain (t : Token) (ht : t.kind = .ident ∨ atHead ∧ t.kind.isLiteral) :
      Link.Spelled atHead ⟨t.kind, t.text, none, ⟨t.offset, t.stop⟩⟩ [t]
  | call (t p c : Token) (inside : List Token) (ht : t.kind = .ident) (hp : p.kind = .lParen)
      (hc : c.kind = .rParen) (hin : Balanced (terminals inside)) :
      Link.Spelled atHead
        ⟨t.kind, t.text, some ⟨sourceOf inside, ⟨p.stop, c.offset⟩⟩, ⟨t.offset, c.stop⟩⟩
        (t :: p :: (inside ++ [c]))

theorem Link.Spelled.begins {atHead : Bool} {l : Link} {w : List Token} (h : l.Spelled atHead w) :
    ∃ t w', w = t :: w' := by
  cases h with
  | plain t ht => exact ⟨t, [], rfl⟩
  | call t p c inside ht hp hc hin => exact ⟨t, _, rfl⟩

theorem readLink_spelled (atHead : Bool) (t : Token) (ts : List Token) (r : LinkRead ts)
    (h : readLink atHead t ts = .ok r) :
    ∃ w, t :: ts = w ++ r.rest ∧ r.link.Spelled atHead w := by
  unfold readLink at h
  dsimp only at h
  split at h
  · next ht =>
    cases ts with
    | nil =>
      cases h
      exact ⟨[t], rfl, .plain t (.inl ht)⟩
    | cons p rest =>
      dsimp only at h
      split at h
      · next hp =>
        split at h
        · cases h
        · next g hg =>
          cases h
          obtain ⟨hts, hc, hin⟩ := closeGroup?_some 0 rest g hg
          refine ⟨t :: p :: (g.inside ++ [g.close]), ?_, .call t p g.close g.inside ht hp hc hin⟩
          simp [hts]
      · cases h
        exact ⟨[t], rfl, .plain t (.inl ht)⟩
  · split at h
    · next hl =>
      cases h
      exact ⟨[t], rfl, .plain t (.inr (Bool.and_eq_true_iff.1 hl))⟩
    · cases h

theorem readLink_of_some {atHead : Bool} {t p : Token} {behind : List Token} {g : Group}
    (ht : t.kind = .ident) (hp : p.kind = .lParen) (hfound : closeGroup? 0 behind = some g) :
    ∃ hlen, readLink atHead t (p :: behind) =
      .ok ⟨⟨t.kind, t.text, some ⟨sourceOf g.inside, ⟨p.stop, g.close.offset⟩⟩,
        ⟨t.offset, g.close.stop⟩⟩, g.rest, hlen⟩ := by
  refine ⟨Nat.le_succ_of_le (Nat.le_of_lt (length_rest_of_closeGroup? hfound)), ?_⟩
  unfold readLink
  rw [if_pos ht]
  dsimp only
  rw [if_pos hp]
  split
  · next hnone => cases hfound.symm.trans hnone
  · next g' hg =>
    cases hfound.symm.trans hg
    rfl

theorem readLink_of_spelled (atHead : Bool) (l : Link) (t : Token) (w rest : List Token)
    (h : l.Spelled atHead (t :: w)) (hrest : ∀ p ∈ rest.head?, p.kind ≠ .lParen) :
    ∃ hlen, readLink atHead t (w ++ rest) = .ok ⟨l, rest, hlen⟩ := by
  cases h with
  | plain _ ht =>
    refine ⟨Nat.le_refl _, ?_⟩
    by_cases hk : t.kind = .ident
    · cases rest with
      | nil => simp [readLink, hk, LinkRead.single]
      | cons p rest =>
        have hp : p.kind ≠ .lParen := hrest p rfl
        simp [readLink, hk, hp, LinkRead.single]
    · have hl : atHead = true ∧ t.kind.isLiteral = true := ht.resolve_left hk
      simp [readLink, hk, hl, LinkRead.single]
  | call _ p c inside ht hp hc hin =>
    have hgroup : closeGroup? 0 (inside ++ [c] ++ rest) = some ⟨inside, c, rest⟩ := by
      rw [List.append_assoc]
      exact closeGroup?_of_nesting 0 inside rest c hc hin
    exact readLink_of_some ht hp hgroup

/-- A link behind its dot. -/
def Link.Dotted (l : Link) (w : List Token) : Prop :=
  ∃ d w', w = d :: w' ∧ d.kind = .dot ∧ l.Spelled false w'

/-- What is behind the links: nothing, or the dot that ends them. -/
def Trailing (endsInDot : Bool) (last : List Token) : Prop :=
  if endsInDot then ∃ d, last = [d] ∧ d.kind = .dot else last = []

theorem readLinks_spelled (atHead : Bool) (t : Token) (ts : List Token) (links : List Link)
    (endsInDot : Bool) (h : readLinks atHead (t :: ts) = .ok (links, endsInDot)) :
    ∃ first w more ws last, links = first :: more ∧ first.Spelled atHead w ∧
      List.Forall₂ Link.Dotted more ws ∧ t :: ts = w ++ (ws.flatten ++ last) ∧
      Trailing endsInDot last := by
  induction hn : ts.length using Nat.strongRecOn generalizing atHead t ts links endsInDot with
  | ind n ih =>
    rw [readLinks] at h
    split at h
    · cases h
    · next link _ hr =>
      cases h
      obtain ⟨w, hw, hl⟩ := readLink_spelled atHead t ts _ hr
      exact ⟨link, w, [], [], [], rfl, hl, .nil, hw, rfl⟩
    · next link d rest hlen hr =>
      obtain ⟨w, hw, hl⟩ := readLink_spelled atHead t ts _ hr
      split at h
      · next hd =>
        obtain ⟨⟨links, e⟩, hrest, heq⟩ := (map_ok_iff _ _ _).1 h
        cases heq
        cases rest with
        | nil =>
          rw [readLinks] at hrest
          cases hrest
          exact ⟨link, w, [], [], [d], rfl, hl, .nil, hw, d, rfl, hd⟩
        | cons u us =>
          have hshorter : us.length < n := by
            simp only [List.length_cons] at hlen
            omega
          obtain ⟨next, v, more, ws, last, rfl, hv, hm, hus, htr⟩ :=
            ih us.length hshorter false u us links _ hrest rfl
          refine ⟨link, w, next :: more, (d :: v) :: ws, last, rfl, hl, ?_, ?_, htr⟩
          · exact .cons ⟨d, v, rfl, hd, hv⟩ hm
          · rw [hw]
            simp [hus]
      · cases h

theorem readLinks_of_spelled (atHead : Bool) (first : Link) (w : List Token) (more : List Link)
    (ws : List (List Token)) (last : List Token) (endsInDot : Bool) (hw : first.Spelled atHead w)
    (hm : List.Forall₂ Link.Dotted more ws) (hlast : Trailing endsInDot last) :
    readLinks atHead (w ++ (ws.flatten ++ last)) = .ok (first :: more, endsInDot) := by
  obtain ⟨t, w, rfl⟩ := hw.begins
  induction hm generalizing atHead first t w with
  | nil =>
    rw [List.flatten_nil, List.nil_append, List.cons_append, readLinks]
    cases endsInDot with
    | false =>
      obtain rfl : last = [] := hlast
      obtain ⟨hlen, hread⟩ := readLink_of_spelled atHead first t w [] hw (by simp)
      rw [hread]
    | true =>
      obtain ⟨d, rfl, hd⟩ := hlast
      obtain ⟨hlen, hread⟩ := readLink_of_spelled atHead first t w [d] hw (by simp [hd])
      rw [hread]
      simp [hd, readLinks, Except.map]
  | @cons next v more ws hv hm ih =>
    obtain ⟨d, v, rfl, hd, hnext⟩ := hv
    obtain ⟨u, v, rfl⟩ := hnext.begins
    obtain ⟨hlen, hread⟩ := readLink_of_spelled atHead first t w
      (d :: (u :: v ++ (ws.flatten ++ last))) hw (by simp [hd])
    have hcut : t :: w ++ (((d :: u :: v) :: ws).flatten ++ last) =
        t :: (w ++ d :: (u :: v ++ (ws.flatten ++ last))) := by simp
    rw [hcut, readLinks, hread]
    simp only [hd, if_true]
    rw [ih false next u v hnext]
    rfl

/-- The tokens of the name being typed.  Behind a final dot there are none. -/
inductive Stem : String → List Token → Prop where
  | empty : Stem "" []
  | name (t : Token) (ht : t.kind = .ident) : Stem t.text [t]

theorem Stem.spelling_eq {stem : String} {w : List Token} (h : Stem stem w) :
    spelling w = stem.toList := by
  cases h <;> simp

theorem Stem.start_eq {stem line : String} {before w : List Token} (h : Stem stem w)
    (hline : tokenize line = before ++ w) :
    (w.head?.map (·.offset)).getD (byteSize line.toList) = byteSize (spelling before) := by
  cases h with
  | empty =>
    rw [List.append_nil] at hline
    rw [← hline, spelling_tokenize]
    rfl
  | name t ht => exact (token_extent line before [] t hline).1

/-- The tokens of the expression being typed, the links in front of the name being typed, and this
name. -/
inductive TypedLinks : List Token → List Link → String → Prop where
  | stem (w : List Token) (stem : String) (hstem : Stem stem w) : TypedLinks w [] stem
  | links (first : Link) (w : List Token) (more : List Link) (ws : List (List Token)) (d : Token)
      (typed : List Token) (stem : String) (hfirst : first.Spelled true w)
      (hmore : List.Forall₂ Link.Dotted more ws) (hd : d.kind = .dot) (hstem : Stem stem typed) :
      TypedLinks (w ++ (ws.flatten ++ d :: typed)) (first :: more) stem

theorem forall₂_concat_left {α β : Type} (R : α → β → Prop) (xs : List α) (x : α) (ys : List β)
    (h : List.Forall₂ R (xs ++ [x]) ys) :
    ∃ ys' y, ys = ys' ++ [y] ∧ List.Forall₂ R xs ys' ∧ R x y := by
  induction xs generalizing ys with
  | nil =>
    obtain ⟨y, ys, hxy, hnil, rfl⟩ := List.forall₂_cons_left_iff.1 h
    obtain rfl := List.forall₂_nil_left_iff.1 hnil
    exact ⟨[], y, rfl, .nil, hxy⟩
  | cons z xs ih =>
    obtain ⟨y, ys, hzy, hrest, rfl⟩ := List.forall₂_cons_left_iff.1 h
    obtain ⟨ys', y', rfl, hxs, hxy⟩ := ih ys hrest
    exact ⟨y :: ys', y', rfl, .cons hzy hxs, hxy⟩

theorem takeStem_concat (links links' : List Link) (l : Link) (stem : String) :
    takeStem (links ++ [l]) false = .ok (links', stem) ↔
      l.kind = .ident ∧ l.arguments = none ∧ links' = links ∧ stem = l.text := by
  rw [takeStem, if_neg Bool.false_ne_true, List.getLast?_concat, List.dropLast_concat]
  dsimp only
  split
  · next hl =>
    constructor
    · intro h
      cases h
      exact ⟨hl.1, hl.2, rfl, rfl⟩
    · rintro ⟨_, _, rfl, rfl⟩
      rfl
  · next hl =>
    constructor
    · intro h
      cases h
    · rintro ⟨hk, ha, _⟩
      exact (hl ⟨hk, ha⟩).elim

/-- What the splitter takes for the links and the name being typed is what they spell. -/
theorem typedLinks_iff (ts : List Token) (links : List Link) (stem : String) :
    (∃ all endsInDot, readLinks true ts = .ok (all, endsInDot) ∧
      takeStem all endsInDot = .ok (links, stem)) ↔ TypedLinks ts links stem := by
  constructor
  · rintro ⟨all, endsInDot, hread, hstem⟩
    cases ts with
    | nil =>
      rw [readLinks] at hread
      cases hread
      cases hstem
      exact .stem [] "" .empty
    | cons t ts =>
      obtain ⟨first, w, more, ws, last, rfl, hw, hm, hts, hlast⟩ :=
        readLinks_spelled true t ts all endsInDot hread
      rw [hts]
      cases endsInDot with
      | true =>
        obtain ⟨d, rfl, hd⟩ := hlast
        cases hstem
        exact .links first w more ws d [] "" hw hm hd .empty
      | false =>
        obtain rfl : last = [] := hlast
        obtain rfl | ⟨more, l, rfl⟩ := List.eq_nil_or_concat more
        · obtain rfl := List.forall₂_nil_left_iff.1 hm
          obtain ⟨hk, ha, rfl, rfl⟩ := (takeStem_concat [] _ _ _).1 hstem
          cases hw with
          | plain t _ => exact .stem [t] t.text (.name t hk)
          | call => cases ha
        · rw [List.concat_eq_append] at hm hstem
          rw [← List.cons_append] at hstem
          obtain ⟨hk, ha, rfl, rfl⟩ := (takeStem_concat _ _ _ _).1 hstem
          obtain ⟨ws, v, rfl, hmore, d, v, rfl, hd, hs⟩ := forall₂_concat_left _ _ _ _ hm
          -- the last link has no arguments, so it is one token
          cases hs with
          | plain u _ =>
            rw [List.flatten_append, List.append_assoc]
            exact .links first w more ws d [u] u.text hw hmore hd (.name u hk)
          | call => cases ha
  · intro h
    cases h with
    | stem _ _ hstem =>
      cases hstem with
      | empty => exact ⟨[], false, by rw [readLinks]; rfl, rfl⟩
      | name t ht =>
        refine ⟨_, false, readLinks_of_spelled true _ [t] [] [] [] false (.plain t (.inl ht)) .nil rfl,
          ?_⟩
        exact (takeStem_concat [] _ _ _).2 ⟨ht, rfl, rfl, rfl⟩
    | links first w more ws d typed _ hw hm hd hstem =>
      cases hstem with
      | empty =>
        exact ⟨_, true, readLinks_of_spelled true first w more ws [d] true hw hm ⟨d, rfl, hd⟩, rfl⟩
      | name u hu =>
        have hall := List.rel_append hm (.cons ⟨d, [u], rfl, hd, .plain u (.inl hu)⟩ .nil)
        have hread := readLinks_of_spelled true first w _ _ [] false hw hall rfl
        rw [List.flatten_append, List.append_assoc] at hread
        refine ⟨_, false, hread, ?_⟩
        rw [← List.cons_append]
        exact (takeStem_concat _ _ _ _).2 ⟨hu, rfl, rfl, rfl⟩

def Token.head (t : Token) : Head := if t.kind = .ident then .name t.text else .literal t.text

/-- The tokens of a member link, its dot in front. -/
inductive Segment.Spelled : Segment → List Token → Prop where
  | field (d t : Token) (hd : d.kind = .dot) (ht : t.kind = .ident) :
      Segment.Spelled ⟨t.text, none, ⟨t.offset, t.stop⟩⟩ [d, t]
  | call (d t p c : Token) (inside : List Token) (hd : d.kind = .dot) (ht : t.kind = .ident)
      (hp : p.kind = .lParen) (hc : c.kind = .rParen) (hin : Balanced (terminals inside)) :
      Segment.Spelled ⟨t.text, some ⟨sourceOf inside, ⟨p.stop, c.offset⟩⟩, ⟨t.offset, c.stop⟩⟩
        (d :: t :: p :: (inside ++ [c]))

theorem dotted_segment (l : Link) (w : List Token) (h : l.Dotted w) : l.toSegment.Spelled w := by
  obtain ⟨d, w, rfl, hd, hl⟩ := h
  cases hl with
  | plain t ht =>
    obtain ht | ⟨hf, _⟩ := ht
    · exact .field d t hd ht
    · cases hf
  | call t p c inside ht hp hc hin => exact .call d t p c inside hd ht hp hc hin

/-- The tokens of a line that ends in a chain with a head. -/
structure Layout (line : String) (chain : AccessChain) where
  before : List Token
  first : Token
  links : List (List Token)
  dot : Token
  stem : List Token
  tokens : tokenize line = before ++ first :: (links.flatten ++ dot :: stem)
  start : chain.start = first.offset
  head : chain.head = first.head
  headSpan : chain.headSpan = ⟨first.offset, first.stop⟩
  first_kind : first.kind = .ident ∨ first.kind.isLiteral
  segments : List.Forall₂ Segment.Spelled chain.segments links
  dot_kind : dot.kind = .dot
  stem_text : spelling stem = chain.stem.toList

theorem typedTail_suffix (opened : List Nat) (tail ts tokens typed : List Token)
    (htail : tail <:+ tokens) (hts : ts <:+ tokens) (h : typedTail opened tail ts = .ok typed) :
    typed <:+ tokens := by
  induction ts generalizing opened tail with
  | nil =>
    cases opened with
    | nil =>
      cases h
      exact htail
    | cons offset opened => cases h
  | cons t ts ih =>
    have hts' : ts <:+ tokens := (List.suffix_cons t ts).trans hts
    unfold typedTail at h
    split at h
    · cases h
    · exact ih _ tail htail hts' h
    · split at h
      · cases h
      · exact ih _ tail htail hts' h
    · split at h
      · exact ih opened ts hts' hts' h
      · exact ih opened tail htail hts' h

theorem typed_suffix {ts typed : List Token} (h : typedTail [] ts ts = .ok typed) : typed <:+ ts :=
  typedTail_suffix [] ts ts ts typed (List.suffix_refl ts) (List.suffix_refl ts) h

/-- The tokens being typed, their links and the chain made of them. -/
theorem splitChain_iff (line : String) (chain : AccessChain) :
    splitChain line = .ok chain ↔
      ∃ typed links, typedTail [] (tokenize line) (tokenize line) = .ok typed ∧
        TypedLinks typed links chain.stem ∧
        chain.start = (typed.head?.map (·.offset)).getD (byteSize line.toList) ∧
        (links = [] ∧ chain.head = .topLevel ∧ chain.headSpan = ⟨chain.start, chain.start⟩ ∧
            chain.segments = [] ∨
          ∃ first rest, links = first :: rest ∧ first.toHead = .ok chain.head ∧
            chain.headSpan = first.span ∧ chain.segments = rest.map Link.toSegment) := by
  unfold splitChain
  constructor
  · intro h
    obtain ⟨typed, htyped, h⟩ := (bind_ok_iff _ _ _).1 h
    obtain ⟨⟨all, endsInDot⟩, hread, h⟩ := (bind_ok_iff _ _ _).1 h
    obtain ⟨⟨links, stem⟩, hstem, h⟩ := (bind_ok_iff _ _ _).1 h
    have hlinks := (typedLinks_iff typed links stem).1 ⟨all, endsInDot, hread, hstem⟩
    cases links with
    | nil =>
      cases h
      exact ⟨typed, [], htyped, hlinks, rfl, .inl ⟨rfl, rfl, rfl, rfl⟩⟩
    | cons first rest =>
      obtain ⟨head, hh, h⟩ := (bind_ok_iff _ _ _).1 h
      cases h
      exact ⟨typed, _, htyped, hlinks, rfl, .inr ⟨first, rest, rfl, hh, rfl, rfl⟩⟩
  · rintro ⟨typed, links, htyped, hlinks, hstart, hshape⟩
    obtain ⟨all, endsInDot, hread, hstem⟩ := (typedLinks_iff typed links chain.stem).2 hlinks
    refine (bind_ok_iff _ _ _).2 ⟨typed, htyped, (bind_ok_iff _ _ _).2 ⟨_, hread,
      (bind_ok_iff _ _ _).2 ⟨_, hstem, ?_⟩⟩⟩
    obtain ⟨start, head, headSpan, segments, stem⟩ := chain
    dsimp only at hstart hshape
    obtain ⟨rfl, rfl, rfl, rfl⟩ | ⟨first, rest, rfl, hh, rfl, rfl⟩ := hshape
    · rw [hstart]
      rfl
    · rw [hstart]
      exact (bind_ok_iff _ _ _).2 ⟨head, hh, rfl⟩

theorem toHead_ne_topLevel (l : Link) (head : Head) (h : l.toHead = .ok head) :
    head ≠ .topLevel := by
  rintro rfl
  rw [Link.toHead] at h
  split at h
  · cases h
  · split at h <;> cases h

/-- A chain with a head is laid out in the tokens of its line. -/
theorem splitChain_layout (line : String) (chain : AccessChain) (h : splitChain line = .ok chain)
    (hhead : chain.head ≠ .topLevel) : Nonempty (Layout line chain) := by
  obtain ⟨typed, links, htyped, hlinks, hstart, hshape⟩ := (splitChain_iff line chain).1 h
  obtain ⟨before, hbefore⟩ := typed_suffix htyped
  obtain ⟨rfl, htop, _⟩ | ⟨first, rest, rfl, hfirst, hspan, hsegs⟩ := hshape
  · exact (hhead htop).elim
  · cases hlinks with
    | links _ w _ ws d name _ hw hm hd hname =>
      cases hw with
      | call => cases hfirst
      | plain t ht =>
        refine ⟨⟨before, t, ws, d, name, hbefore.symm, hstart, (Except.ok.inj hfirst).symm, hspan,
          ?_, ?_, hd, hname.spelling_eq⟩⟩
        · exact ht.imp_right And.right
        · rw [hsegs]
          refine List.forall₂_map_left_iff.2 (hm.imp ?_)
          exact dotted_segment

/-- A chain with nothing in front of the name being typed has no segments, and the name is all that
is being typed. -/
theorem splitChain_stem (line : String) (chain : AccessChain)
    (h : splitChain line = .ok chain) (htop : chain.head = .topLevel) :
    chain.segments = [] ∧ chain.headSpan = ⟨chain.start, chain.start⟩ ∧
      ∃ before typed, tokenize line = before ++ typed ∧ Stem chain.stem typed ∧
        chain.start = (typed.head?.map (·.offset)).getD (byteSize line.toList) := by
  obtain ⟨typed, links, htyped, hlinks, hstart, hshape⟩ := (splitChain_iff line chain).1 h
  obtain ⟨before, hbefore⟩ := typed_suffix htyped
  obtain ⟨rfl, _, hspan, hsegs⟩ | ⟨first, rest, _, hfirst, _⟩ := hshape
  · cases hlinks with
    | stem _ _ hstem => exact ⟨hsegs, hspan, before, typed, hbefore.symm, hstem, hstart⟩
  · exact (toHead_ne_topLevel first _ hfirst htop).elim

theorem splitChain_topLevel (line : String) (chain : AccessChain)
    (h : splitChain line = .ok chain) (htop : chain.head = .topLevel) : chain.segments = [] :=
  (splitChain_stem line chain h htop).1

/-- The source from the head through the first `k` segments. -/
def AccessChain.front (c : AccessChain) (k : Nat) : String :=
  AccessChain.extend c.head.source (c.segments.take k)

theorem fragment_eq_front (c : AccessChain) (i : Nat) (h : i < c.segments.length) :
    c.fragment i = c.front (i + 1) := if_pos h

theorem fragment_last (c : AccessChain) :
    c.fragment (c.segments.length - 1) = c.front c.segments.length := by
  cases hn : c.segments.length with
  | zero =>
    rw [AccessChain.fragment, hn, if_neg (Nat.lt_irrefl 0)]
    rfl
  | succ n => exact fragment_eq_front c n (by omega)

theorem source_head (t : Token) : t.head.source = t.text := by
  unfold Token.head
  split <;> rfl

theorem segment_source (line : String) (s : Segment) (w : List Token) (h : s.Spelled w)
    (hw : ∀ t ∈ w, t ∈ tokenize line) : spelling w = '.' :: s.source.toList := by
  have punct : ∀ t ∈ w, ∀ c, punctuation? c = some t.kind → t.text = String.ofList [c] :=
    fun t ht => text_punctuation line t (hw t ht)
  cases h with
  | field d t hd ht =>
    have hdot := punct d (by simp) '.' (by rw [hd]; rfl)
    simp [hdot, Segment.source]
  | call d t p c inside hd ht hp hc hin =>
    have hdot := punct d (by simp) '.' (by rw [hd]; rfl)
    have hopen := punct p (by simp) '(' (by rw [hp]; rfl)
    have hclose := punct c (by simp) ')' (by rw [hc]; rfl)
    simp [hdot, hopen, hclose, Segment.source, sourceOf, spelling]

theorem extend_source (line : String) (base : String) (segs : List Segment)
    (ws : List (List Token)) (h : List.Forall₂ Segment.Spelled segs ws)
    (hw : ∀ t ∈ ws.flatten, t ∈ tokenize line) :
    (AccessChain.extend base segs).toList = base.toList ++ spelling ws.flatten := by
  induction h generalizing base with
  | nil => simp [AccessChain.extend]
  | @cons s w segs ws hs _ ih =>
    have hhere : ∀ t ∈ w, t ∈ tokenize line :=
      fun t ht => hw t (List.mem_append_left _ ht)
    have hrest : ∀ t ∈ ws.flatten, t ∈ tokenize line :=
      fun t ht => hw t (List.mem_append_right _ ht)
    calc (AccessChain.extend base (s :: segs)).toList
      _ = (base ++ "." ++ s.source).toList ++ spelling ws.flatten := ih _ hrest
      _ = base.toList ++ ('.' :: s.source.toList ++ spelling ws.flatten) := by simp
      _ = base.toList ++ spelling (w ++ ws.flatten) := by
        rw [spelling_append, segment_source line s w hs hhere]

namespace Layout
variable {line : String} {chain : AccessChain} (l : Layout line chain)

/-- The tokens from the head through the first `k` segments. -/
def front (k : Nat) : List Token := l.first :: (l.links.take k).flatten

theorem tokens_front (k : Nat) : ∃ rest, tokenize line = l.before ++ (l.front k ++ rest) := by
  refine ⟨(l.links.drop k).flatten ++ l.dot :: l.stem, ?_⟩
  have hcut : l.links.flatten = (l.links.take k).flatten ++ (l.links.drop k).flatten := by
    rw [← List.flatten_append, List.take_append_drop]
  rw [l.tokens, hcut]
  simp [front]

theorem spelling_front (k : Nat) : (chain.front k).toList = spelling (l.front k) := by
  obtain ⟨rest, hrest⟩ := l.tokens_front k
  have hw : ∀ t ∈ (l.links.take k).flatten, t ∈ tokenize line := by
    intro t ht
    rw [hrest]
    exact List.mem_append_right _ (List.mem_append_left _ (List.mem_cons_of_mem _ ht))
  rw [AccessChain.front, extend_source line _ _ _ (List.forall₂_take k l.segments) hw, l.head,
    source_head]
  rfl

/-- The source of an initial part of the chain has the tokens of that part. -/
theorem tokenize_front (k : Nat) :
    (tokenize (chain.front k)).map (Token.shift (byteSize (spelling l.before))) = l.front k := by
  obtain ⟨rest, hrest⟩ := l.tokens_front k
  have hbehind := (tokensFrom_cut 0 line.toList _ _ hrest).2
  have hfront := (tokensFrom_cut _ _ _ _ hbehind).1
  rw [← tokensFrom_eq_map_tokenize, l.spelling_front k]
  rw [Nat.zero_add] at hfront
  exact hfront

end Layout

theorem terminals_shift (n : Nat) (ts : List Token) :
    terminals (ts.map (Token.shift n)) = terminals ts := by
  simp only [terminals, List.filter_map, List.map_map]
  rfl

theorem Layout.terminals_front {line : String} {chain : AccessChain} (l : Layout line chain)
    (k : Nat) : (significantTokens (chain.front k)).map Token.terminal = terminals (l.front k) := by
  rw [← l.tokenize_front k, terminals_shift]
  rfl

end ScriptConsole
