import ScriptConsole.Proofs.Chain.Layout

namespace ScriptConsole

/-- `text` is what stands in the span of `line`.  Both ends of the span lie between characters. -/
def Span.Holds (s : Span) (line text : String) : Prop :=
  ∃ before after : String, line = before ++ text ++ after ∧ s.start = before.utf8ByteSize ∧
    s.stop = before.utf8ByteSize + text.utf8ByteSize

theorem Span.Holds.le {s : Span} {line text : String} (h : s.Holds line text) :
    s.start ≤ s.stop := by
  obtain ⟨_, _, _, hstart, hstop⟩ := h
  omega

/-- Consecutive tokens of a line stand where the tokens in front of them end. -/
theorem holds_tokens (line text : String) (before w after : List Token)
    (h : tokenize line = before ++ (w ++ after)) (htext : text.toList = spelling w) :
    Span.Holds ⟨byteSize (spelling before), byteSize (spelling (before ++ w))⟩ line text := by
  refine ⟨String.ofList (spelling before), String.ofList (spelling after), ?_, ?_, ?_⟩
  · apply String.toList_injective
    rw [← spelling_tokenize line, h]
    simp [htext]
  · rw [utf8ByteSize_ofList]
  · rw [utf8ByteSize_ofList, ← byteSize_toList text, htext, spelling_append, byteSize_append]

theorem holds_token (line : String) (t : Token) (before after : List Token)
    (h : tokenize line = before ++ t :: after) :
    Span.Holds ⟨t.offset, t.stop⟩ line t.text := by
  obtain ⟨hoffset, hstop, _⟩ := token_extent line before after t h
  rw [hoffset, hstop]
  exact holds_tokens line t.text before [t] after h (by simp)

/-- The source of a segment stands at its span.  The arguments of a call stand between the
parenthesis behind the name and the last one. -/
structure Segment.Stands (s : Segment) (line : String) : Prop where
  holds : s.span.Holds line s.source
  nonempty : s.span.start < s.span.stop
  arguments : ∀ args, s.arguments = some args → args.span.Holds line args.source ∧
    args.span.start = s.span.start + (s.name ++ "(").utf8ByteSize ∧
    args.span.stop + ")".utf8ByteSize = s.span.stop

section Cut
variable (line : String) (before : List Token)

theorem offset_behind_dot (d t : Token) (after : List Token)
    (h : tokenize line = before ++ d :: t :: after) (hd : d.kind = .dot) :
    t.offset = byteSize (spelling before) + 1 := by
  have hline : tokenize line = (before ++ [d]) ++ t :: after := by simp [h]
  have hdot : d.text = String.ofList ['.'] :=
    text_punctuation line d (by simp [h]) '.' (by rw [hd]; rfl)
  have hsize : ('.' : Char).utf8Size = 1 := by decide
  rw [(token_extent line _ _ t hline).1]
  simp [hdot, byteSize, hsize]

theorem arguments_hold (t p c : Token) (inside after : List Token)
    (h : tokenize line = before ++ t :: p :: (inside ++ c :: after)) (hp : p.kind = .lParen)
    (hc : c.kind = .rParen) :
    Span.Holds ⟨p.stop, c.offset⟩ line (sourceOf inside) ∧
      p.stop = t.offset + (t.text ++ "(").utf8ByteSize ∧
      c.offset + ")".utf8ByteSize = c.stop := by
  have hopen : p.text = String.ofList ['('] :=
    text_punctuation line p (by simp [h]) '(' (by rw [hp]; rfl)
  have hclose : c.text = String.ofList [')'] :=
    text_punctuation line c (by simp [h]) ')' (by rw [hc]; rfl)
  have hinside : tokenize line = (before ++ [t, p]) ++ (inside ++ c :: after) := by simp [h]
  have htoffset := (token_extent line before _ t h).1
  have hpstop := (token_extent line (before ++ [t]) (inside ++ c :: after) p (by simp [h])).2.1
  have hcoffset := (token_extent line (before ++ [t, p] ++ inside) after c (by simp [h])).1
  refine ⟨?_, ?_, ?_⟩
  · have hholds := holds_tokens line _ _ _ _ hinside String.toList_ofList
    rw [hpstop, hcoffset, List.append_assoc]
    exact hholds
  · rw [hpstop, htoffset, ← byteSize_toList]
    simp [hopen, byteSize]
  · rw [Token.stop, hclose, byteSize_toList]

/-- A segment stands behind its dot, up to where its tokens end. -/
theorem segment_stands (s : Segment) (w after : List Token) (hs : s.Spelled w)
    (h : tokenize line = before ++ (w ++ after)) :
    s.Stands line ∧ s.span.start = byteSize (spelling before) + 1 ∧
      s.span.stop = byteSize (spelling (before ++ w)) := by
  have hw : ∀ t ∈ w, t ∈ tokenize line := by
    intro t ht
    rw [h]
    simp [ht]
  have hsource : spelling w = '.' :: s.source.toList := segment_source line s w hs hw
  cases hs with
  | field d t hd ht =>
    have hline : tokenize line = (before ++ [d]) ++ t :: after := by simp [h]
    obtain ⟨_, hstop, hlt⟩ := token_extent line _ _ t hline
    refine ⟨⟨holds_token line t _ _ hline, hlt, nofun⟩, offset_behind_dot line before d t after h hd,
      ?_⟩
    rw [hstop, List.append_assoc]
    rfl
  | call d t p c inside hd ht hp hc hin =>
    have hline : tokenize line = (before ++ [d]) ++ (t :: p :: (inside ++ [c]) ++ after) := by
      simp [h]
    have hstart : t.offset = byteSize (spelling before) + 1 :=
      offset_behind_dot line before d t _ h hd
    have hend : c.stop = byteSize (spelling (before ++ d :: t :: p :: (inside ++ [c]))) := by
      rw [(token_extent line (before ++ d :: t :: p :: inside) after c (by simp [h])).2.1]
      simp
    obtain ⟨hargs, hopen, hclose⟩ :=
      arguments_hold line (before ++ [d]) t p c inside after (by simp [h]) hp hc
    refine ⟨⟨?_, ?_, ?_⟩, hstart, hend⟩
    · have hdot : d.text = String.ofList ['.'] :=
        text_punctuation line d (hw d (by simp)) '.' (by rw [hd]; rfl)
      rw [spelling_cons, hdot, String.toList_ofList] at hsource
      have hholds := holds_tokens line _ (before ++ [d]) _ after hline (List.cons.inj hsource).2.symm
      rw [List.append_assoc, ← (token_extent line _ _ t hline).1] at hholds
      rw [hend]
      exact hholds
    · have hle : p.stop ≤ c.offset := hargs.le
      have hsize : ")".utf8ByteSize = 1 := by decide
      dsimp only
      omega
    · intro args hcall
      cases hcall
      exact ⟨hargs, hopen, hclose⟩

end Cut

namespace Layout
variable {line : String} {chain : AccessChain} (l : Layout line chain)

/-- Where the first `k` segments end. -/
def edge (k : Nat) : Nat := byteSize (spelling (l.before ++ l.front k))

theorem edge_mono (i j : Nat) (h : i ≤ j) : l.edge i ≤ l.edge j := by
  obtain ⟨d, rfl⟩ := Nat.exists_eq_add_of_le h
  simp [edge, front, List.take_add]

theorem segment_at (i : Nat) (hi : i < chain.segments.length) :
    chain.segments[i].Stands line ∧ chain.segments[i].span.start = l.edge i + 1 ∧
      chain.segments[i].span.stop = l.edge (i + 1) := by
  have hlinks : i < l.links.length := by
    rw [← l.segments.length_eq]
    exact hi
  have hfront : l.front (i + 1) = l.front i ++ l.links[i] := by
    rw [front, front, List.take_succ_eq_append_getElem hlinks, List.flatten_append]
    simp
  obtain ⟨rest, hrest⟩ := l.tokens_front (i + 1)
  rw [edge, edge, hfront, ← List.append_assoc]
  refine segment_stands line (l.before ++ l.front i) _ l.links[i] rest (l.segments.get hi hlinks) ?_
  rw [hrest, hfront]
  simp

theorem first_extent : l.first.offset = byteSize (spelling l.before) ∧ l.first.stop = l.edge 0 ∧
    l.first.offset < l.first.stop :=
  token_extent line l.before _ l.first l.tokens

theorem holds_front (k : Nat) : Span.Holds ⟨chain.start, l.edge k⟩ line (chain.front k) := by
  obtain ⟨rest, hrest⟩ := l.tokens_front k
  rw [l.start, l.first_extent.1]
  exact holds_tokens line _ l.before (l.front k) rest hrest (l.spelling_front k)

theorem holds_whole (l : Layout line chain) : Span.Holds ⟨chain.start, line.utf8ByteSize⟩ line
    (AccessChain.extend chain.head.source chain.segments ++ "." ++ chain.stem) := by
  have hall : chain.front chain.segments.length =
      AccessChain.extend chain.head.source chain.segments := by
    rw [AccessChain.front, List.take_length]
  have hlinks : l.links.take chain.segments.length = l.links := by
    rw [l.segments.length_eq, List.take_length]
  have htokens : tokenize line =
      l.before ++ ((l.front chain.segments.length ++ l.dot :: l.stem) ++ []) := by
    rw [l.tokens, front, hlinks]
    simp
  have hdot := text_punctuation line l.dot (by rw [l.tokens]; simp) '.' (by rw [l.dot_kind]; rfl)
  have htext : (AccessChain.extend chain.head.source chain.segments ++ "." ++ chain.stem).toList =
      spelling (l.front chain.segments.length ++ l.dot :: l.stem) := by
    rw [spelling_append, spelling_cons, l.stem_text, hdot, ← l.spelling_front, hall]
    simp
  have hholds := holds_tokens line _ _ _ _ htokens htext
  rw [← l.first_extent.1, ← l.start] at hholds
  rw [List.append_nil] at htokens
  rwa [← htokens, byteSize_tokenize] at hholds

theorem spans_increase (l : Layout line chain) :
    (chain.headSpan :: chain.segments.map Segment.span).Pairwise fun a b => a.stop < b.start := by
  rw [List.pairwise_cons]
  constructor
  · intro b hb
    obtain ⟨s, hs, rfl⟩ := List.mem_map.1 hb
    obtain ⟨i, hi, rfl⟩ := List.getElem_of_mem hs
    have hedge := l.edge_mono 0 i (Nat.zero_le i)
    rw [l.headSpan, (l.segment_at i hi).2.1]
    have hstop := l.first_extent.2.1
    dsimp only
    omega
  · rw [List.pairwise_map, List.pairwise_iff_getElem]
    intro i j hi hj hij
    have hedge := l.edge_mono (i + 1) j hij
    rw [(l.segment_at i hi).2.2, (l.segment_at j hj).2.1]
    omega

end Layout

/-- The chain gives every byte of the line behind its start, in order. -/
structure AccessChain.Describes (c : AccessChain) (line : String) : Prop where
  /-- Without a head there is the name being typed alone. -/
  topLevel : c.head = .topLevel →
    c.segments = [] ∧ Span.Holds ⟨c.start, line.utf8ByteSize⟩ line c.stem
  whole : c.head ≠ .topLevel → Span.Holds ⟨c.start, line.utf8ByteSize⟩ line
    (AccessChain.extend c.head.source c.segments ++ "." ++ c.stem)
  head_start : c.headSpan.start = c.start
  head : c.headSpan.Holds line c.head.source
  segments : ∀ s ∈ c.segments, s.Stands line
  increase : (c.headSpan :: c.segments.map Segment.span).Pairwise fun a b => a.stop < b.start
  fragments : ∀ i (hi : i < c.segments.length),
    Span.Holds ⟨c.start, c.segments[i].span.stop⟩ line (c.fragment i)

theorem Span.Holds.front {start stop : Nat} {line text : String}
    (h : Span.Holds ⟨start, stop⟩ line text) : Span.Holds ⟨start, start⟩ line "" := by
  obtain ⟨before, after, rfl, hstart, _⟩ := h
  exact ⟨before, text ++ after, by simp [String.append_assoc], hstart, by simpa using hstart⟩

theorem stem_holds (line : String) (chain : AccessChain) (h : splitChain line = .ok chain)
    (htop : chain.head = .topLevel) :
    chain.segments = [] ∧ chain.headSpan = ⟨chain.start, chain.start⟩ ∧
      Span.Holds ⟨chain.start, line.utf8ByteSize⟩ line chain.stem := by
  obtain ⟨hsegs, hspan, before, typed, htokens, hstem, hstart⟩ := splitChain_stem line chain h htop
  have hplace : chain.start = byteSize (spelling before) :=
    hstart.trans (hstem.start_eq htokens)
  have hholds := holds_tokens line chain.stem before typed [] (by simpa using htokens)
    hstem.spelling_eq.symm
  rw [← htokens, byteSize_tokenize, ← hplace] at hholds
  exact ⟨hsegs, hspan, hholds⟩

/-- A chain that the splitter finds gives back the text that it stands for. -/
theorem splitChain_describes (line : String) (chain : AccessChain)
    (h : splitChain line = .ok chain) : chain.Describes line := by
  by_cases htop : chain.head = .topLevel
  · obtain ⟨hsegs, hspan, hstem⟩ := stem_holds line chain h htop
    have hempty : Span.Holds ⟨chain.start, chain.start⟩ line "" := hstem.front
    exact {
      topLevel := fun _ => ⟨hsegs, hstem⟩
      whole := fun h => (h htop).elim
      head_start := by rw [hspan]
      head := by
        rw [hspan, htop]
        exact hempty
      segments := by simp [hsegs]
      increase := by simp [hsegs]
      fragments := by simp [hsegs] }
  · obtain ⟨l⟩ := splitChain_layout line chain h htop
    exact {
      topLevel := fun h => (htop h).elim
      whole := fun _ => l.holds_whole
      head_start := by rw [l.headSpan, l.start]
      head := by
        rw [l.headSpan, l.head, source_head]
        exact holds_token line l.first _ _ l.tokens
      segments := by
        intro s hs
        obtain ⟨i, hi, rfl⟩ := List.getElem_of_mem hs
        exact (l.segment_at i hi).1
      increase := l.spans_increase
      fragments := by
        intro i hi
        rw [fragment_eq_front chain i hi, (l.segment_at i hi).2.2]
        exact l.holds_front (i + 1) }

/-- Behind an assignment: a head of two bytes, a call with a parenthesis in its arguments and a call
without any. -/
theorem splitChain_describes_calls :
    ∃ chain, splitChain "y = é.at('(', x).to().le" = .ok chain ∧
      chain.Describes "y = é.at('(', x).to().le" ∧
      Span.Holds ⟨4, 17⟩ "y = é.at('(', x).to().le" "é.at('(', x)" := by
  have hsplit : splitChain "y = é.at('(', x).to().le" = .ok ⟨4, .name "é", ⟨4, 6⟩,
      [⟨"at", some ⟨"'(', x", ⟨10, 16⟩⟩, ⟨7, 17⟩⟩, ⟨"to", some ⟨"", ⟨21, 21⟩⟩, ⟨18, 22⟩⟩], "le"⟩ := by
    decide +kernel
  have hdescribes := splitChain_describes _ _ hsplit
  exact ⟨_, hsplit, hdescribes, hdescribes.fragments 0 (by decide)⟩

end ScriptConsole
