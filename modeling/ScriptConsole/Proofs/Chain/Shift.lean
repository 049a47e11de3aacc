import ScriptConsole.Proofs.Chain.Typing

namespace ScriptConsole

section Shift
variable (n : Nat)

def Span.shift (s : Span) : Span := ⟨n + s.start, n + s.stop⟩

def Arguments.shift (a : Arguments) : Arguments := { a with span := a.span.shift n }

def Segment.shift (s : Segment) : Segment :=
  { s with arguments := s.arguments.map (Arguments.shift n), span := s.span.shift n }

/-- The same chain `n` bytes further to the right. -/
def AccessChain.shift (c : AccessChain) : AccessChain :=
  { c with
    start := n + c.start
    headSpan := c.headSpan.shift n
    segments := c.segments.map (Segment.shift n) }

def Link.shift (l : Link) : Link :=
  { l with arguments := l.arguments.map (Arguments.shift n), span := l.span.shift n }

theorem stop_shift (t : Token) : (t.shift n).stop = n + t.stop := Nat.add_assoc n _ _

theorem sourceOf_shift (ts : List Token) : sourceOf (ts.map (Token.shift n)) = sourceOf ts := by
  rw [sourceOf, sourceOf, List.flatMap_map]
  rfl

theorem source_shift (s : Segment) : (s.shift n).source = s.source := by
  rw [Segment.source, Segment.source, Segment.shift]
  cases s.arguments <;> rfl

theorem extend_shift (base : String) (segments : List Segment) :
    AccessChain.extend base (segments.map (Segment.shift n)) =
      AccessChain.extend base segments := by
  rw [AccessChain.extend, AccessChain.extend, List.foldl_map]
  simp only [source_shift]

theorem fragment_shift (c : AccessChain) (i : Nat) : (c.shift n).fragment i = c.fragment i := by
  simp only [AccessChain.fragment, AccessChain.shift, List.length_map, ← List.map_take,
    extend_shift]

theorem typedTail_shift_iff (opened : List Nat) (tail ts typed : List Token) :
    typedTail (opened.map (n + ·)) (tail.map (Token.shift n)) (ts.map (Token.shift n)) = .ok typed ↔
      ∃ here, typedTail opened tail ts = .ok here ∧ here.map (Token.shift n) = typed := by
  induction ts generalizing opened tail with
  | nil =>
    cases opened with
    | nil =>
      constructor
      · rintro ⟨⟩
        exact ⟨tail, rfl, rfl⟩
      · rintro ⟨_, ⟨⟩, rfl⟩
        rfl
    | cons _ opened =>
      constructor
      · nofun
      · rintro ⟨_, ⟨⟩, _⟩
  | cons t ts ih =>
    rw [List.map_cons]
    have hkind : (t.shift n).kind = t.kind := rfl
    by_cases hu : t.kind = .unterminatedString
    · rw [typedTail_unterminated _ _ _ _ hu, typedTail_unterminated _ _ _ _ (hkind.trans hu)]
      constructor
      · nofun
      · rintro ⟨_, ⟨⟩, _⟩
    by_cases hl : t.kind = .lParen
    · rw [typedTail_lParen _ _ _ _ hl, typedTail_lParen _ _ _ _ (hkind.trans hl)]
      exact ih (t.offset :: opened) tail
    by_cases hr : t.kind = .rParen
    · rw [typedTail_rParen _ _ _ _ hr, typedTail_rParen _ _ _ _ (hkind.trans hr)]
      cases opened with
      | nil =>
        constructor
        · nofun
        · rintro ⟨_, ⟨⟩, _⟩
      | cons _ opened => exact ih opened tail
    · rw [typedTail_plain _ _ _ _ hu hl hr,
        typedTail_plain _ _ _ _ (hkind ▸ hu) (hkind ▸ hl) (hkind ▸ hr), hkind, List.isEmpty_map]
      split
      · exact ih opened ts
      · exact ih opened tail

theorem Link.Spelled.shift {atHead : Bool} {l : Link} {w : List Token} (h : l.Spelled atHead w) :
    (l.shift n).Spelled atHead (w.map (Token.shift n)) := by
  cases h with
  | plain t ht =>
    have hlink := Link.Spelled.plain (t.shift n) ht
    rwa [stop_shift] at hlink
  | call t p c inside ht hp hc hin =>
    have hinside : Balanced (terminals (inside.map (Token.shift n))) := by
      rwa [terminals_shift]
    have hlink : Link.Spelled atHead _ (t.shift n :: p.shift n :: (_ ++ [c.shift n])) :=
      .call (t.shift n) (p.shift n) (c.shift n) _ ht hp hc hinside
    rw [stop_shift, stop_shift, sourceOf_shift] at hlink
    rw [List.map_cons, List.map_cons, List.map_append]
    exact hlink

theorem Link.Dotted.shift {l : Link} {w : List Token} (h : l.Dotted w) :
    (l.shift n).Dotted (w.map (Token.shift n)) := by
  obtain ⟨d, w, rfl, hd, hl⟩ := h
  exact ⟨d.shift n, w.map (Token.shift n), rfl, hd, hl.shift n⟩

theorem Stem.shift {stem : String} {w : List Token} (h : Stem stem w) :
    Stem stem (w.map (Token.shift n)) := by
  cases h with
  | empty => exact .empty
  | name t ht => exact .name (t.shift n) ht

theorem TypedLinks.shift {ts : List Token} {links : List Link} {stem : String}
    (h : TypedLinks ts links stem) :
    TypedLinks (ts.map (Token.shift n)) (links.map (Link.shift n)) stem := by
  cases h with
  | stem w _ hstem => exact .stem _ _ (hstem.shift n)
  | links first w more ws d typed _ hfirst hmore hd hstem =>
    have hshift : List.Forall₂ Link.Dotted (more.map (Link.shift n))
        (ws.map (List.map (Token.shift n))) := by
      rw [List.forall₂_map_left_iff, List.forall₂_map_right_iff]
      exact hmore.imp fun _ _ h => h.shift n
    have hlinks := TypedLinks.links (first.shift n) _ _ _ (d.shift n) _ stem (hfirst.shift n)
      hshift hd (hstem.shift n)
    simpa [List.map_flatten] using hlinks

theorem toHead_shift {l : Link} {head : Head} (h : l.toHead = .ok head) :
    (l.shift n).toHead = .ok head := by
  obtain ⟨kind, text, arguments, span⟩ := l
  cases arguments with
  | none => exact h
  | some args => cases h

/-- What is a chain further to the right is one here. -/
theorem chainTokens_of_shift {ts : List Token} (h : ChainTokens (ts.map (Token.shift n))) :
    ChainTokens ts := by
  have hback := h.map (fun t => { t with offset := t.offset - n }) fun _ => rfl
  have hid : (fun t : Token => { t with offset := t.offset - n }) ∘ Token.shift n = id := by
    funext t
    simp [Token.shift]
  rwa [List.map_map, hid, List.map_id] at hback

end Shift

theorem typedTail_append (opened : List Nat) (tail ts rest more : List Token)
    (h : typedTail opened tail ts = .ok rest) :
    typedTail opened (tail ++ more) (ts ++ more) = typedTail [] (rest ++ more) more := by
  induction ts generalizing opened tail with
  | nil =>
    cases opened with
    | nil =>
      cases h
      rfl
    | cons _ _ => cases h
  | cons t ts ih =>
    rw [List.cons_append]
    by_cases hu : t.kind = .unterminatedString
    · rw [typedTail_unterminated _ _ _ _ hu] at h
      cases h
    by_cases hl : t.kind = .lParen
    · rw [typedTail_lParen _ _ _ _ hl] at h ⊢
      exact ih _ _ h
    by_cases hr : t.kind = .rParen
    · rw [typedTail_rParen _ _ _ _ hr] at h ⊢
      cases opened with
      | nil => cases h
      | cons _ opened => exact ih opened tail h
    · rw [typedTail_plain _ _ _ _ hu hl hr] at h ⊢
      rw [← ih _ _ h]
      split <;> rfl

theorem typedTail_of_start {line : String} {chain : AccessChain} (h : splitChain line = .ok chain)
    (hstart : chain.start = line.utf8ByteSize) :
    typedTail [] (tokenize line) (tokenize line) = .ok [] := by
  obtain ⟨typed, links, htyped, _, hplace, _⟩ := (splitChain_iff line chain).1 h
  cases typed with
  | nil => exact htyped
  | cons t ts =>
    obtain ⟨before, hbefore⟩ := typed_suffix htyped
    obtain ⟨_, hstop, hlt⟩ := token_extent line before ts t hbefore.symm
    have hsize : line.utf8ByteSize =
        byteSize (spelling (before ++ [t])) + byteSize (spelling ts) := by
      rw [← byteSize_append, ← spelling_append, List.append_assoc, List.singleton_append, hbefore,
        byteSize_tokenize]
    have hoffset : chain.start = t.offset := hplace
    omega

/-- Nothing, or what begins with a name or a literal. -/
def BeginsPlain (e : String) : Prop :=
  ∀ t ∈ (tokenize e).head?, t.kind = .ident ∨ t.kind.isLiteral = true

theorem BeginsPlain.first {e : String} (h : BeginsPlain e) :
    ∀ c ∈ e.toList.head?, isTokenBlank c = false ∧ isOperatorChar c = false := by
  rw [BeginsPlain, tokenize] at h
  cases hcs : e.toList with
  | nil => simp
  | cons c cs =>
    rw [hcs, tokensFrom_cons] at h
    have hkind : (munch c cs).1 = .ident ∨ (munch c cs).1.isLiteral = true := h _ rfl
    rintro _ ⟨⟩
    constructor
    · refine Bool.eq_false_iff.2 fun hblank => ?_
      rw [munch_blank c cs hblank] at hkind
      simp [TokenKind.isLiteral] at hkind
    · refine Bool.eq_false_iff.2 fun hoperator => ?_
      rw [munch_operator c cs hoperator] at hkind
      rcases munchOperator_kind c cs with hassign | hassign <;>
        simp [hassign, TokenKind.isLiteral] at hkind

section Behind
variable {p e : String} {before : AccessChain} (hp : splitChain p = .ok before)
variable (hstart : before.start = p.utf8ByteSize) (he : BeginsPlain e)
include hp hstart he

theorem tokenize_behind :
    tokenize (p ++ e) = tokenize p ++ (tokenize e).map (Token.shift p.utf8ByteSize) := by
  have htail := typedTail_of_start hp hstart
  refine tokenize_append p e (closed_of_typedTail htail) ?_
  intro t ht
  have hends := last_endsExpression htail t ht
  refine ⟨TokenKind.ends_of_endsExpression hends he.first, ?_⟩
  intro hdot
  rw [hdot] at hends
  cases hends

theorem typedTail_behind_iff (typed : List Token) :
    typedTail [] (tokenize (p ++ e)) (tokenize (p ++ e)) = .ok typed ↔
      ∃ here, typedTail [] (tokenize e) (tokenize e) = .ok here ∧
        here.map (Token.shift p.utf8ByteSize) = typed := by
  rw [tokenize_behind hp hstart he,
    typedTail_append [] _ _ _ _ (typedTail_of_start hp hstart), List.nil_append]
  exact typedTail_shift_iff _ [] _ _ typed

theorem splitChain_behind {chain : AccessChain} (h : splitChain e = .ok chain) :
    splitChain (p ++ e) = .ok (chain.shift p.utf8ByteSize) := by
  obtain ⟨typed, links, htyped, hlinks, hplace, hshape⟩ := (splitChain_iff e chain).1 h
  refine (splitChain_iff _ _).2 ⟨typed.map (Token.shift p.utf8ByteSize),
    links.map (Link.shift p.utf8ByteSize),
    (typedTail_behind_iff hp hstart he _).2 ⟨typed, htyped, rfl⟩, hlinks.shift _, ?_, ?_⟩
  · rw [AccessChain.shift, hplace, String.toList_append, byteSize_append, byteSize_toList p]
    cases typed <;> rfl
  · obtain ⟨rfl, hhead, hspan, hsegments⟩ | ⟨first, rest, rfl, hhead, hspan, hsegments⟩ := hshape
    · refine .inl ⟨rfl, hhead, ?_, ?_⟩
      · rw [AccessChain.shift, hspan]
        rfl
      · rw [AccessChain.shift, hsegments]
        rfl
    · refine .inr ⟨first.shift _, rest.map (Link.shift _), rfl, toHead_shift _ hhead, ?_, ?_⟩
      · rw [AccessChain.shift, hspan]
        rfl
      · rw [AccessChain.shift, hsegments, List.map_map, List.map_map]
        rfl

/-- Behind a statement the chain of an expression is the same, further to the right. -/
theorem splitChain_behind_iff (chain : AccessChain) :
    splitChain (p ++ e) = .ok chain ↔
      ∃ here, splitChain e = .ok here ∧ here.shift p.utf8ByteSize = chain := by
  constructor
  · intro h
    obtain ⟨typed, htyped, hchain⟩ := (exists_splitChain_iff _).1 ⟨chain, h⟩
    obtain ⟨here, hhere, rfl⟩ := (typedTail_behind_iff hp hstart he typed).1 htyped
    obtain ⟨chain', h'⟩ := (exists_splitChain_iff e).2 ⟨here, hhere, chainTokens_of_shift _ hchain⟩
    have hshift := splitChain_behind hp hstart he h'
    exact ⟨chain', h', Except.ok.inj (hshift.symm.trans h)⟩
  · rintro ⟨here, h, rfl⟩
    exact splitChain_behind hp hstart he h

end Behind

end ScriptConsole
