import ScriptConsole.Proofs.Chain.Layout
import ScriptConsole.Proofs.Expr.Printing
import ScriptConsole.QualifiedName

namespace ScriptConsole

/-- Names with a dot in front of each. -/
def dotted (names : List String) : List Terminal := names.flatMap fun name => [.dot, .ident name]

theorem ident_ends_dotted (names : List String) :
    TokenKind.ident.Ends (written (dotted names ++ [.dot])) := by
  have hdot : isIdentContinue '.' = false := isIdentContinue_sign (by decide)
  cases names with
  | nil =>
    intro d hd
    cases hd
    exact hdot
  | cons name names =>
    intro d hd
    cases hd
    exact hdot

theorem ident_formed (name : String) (h : isIdentifier name = true) :
    (Terminal.ident name).Formed := (isIdentifier_iff_form name).1 h

theorem dotted_readable (names : List String) (h : ∀ name ∈ names, isIdentifier name = true) :
    Readable (dotted names ++ [.dot]) := by
  induction names with
  | nil => exact .cons _ _ Terminal.formed_dot trivial .nil
  | cons name names ih =>
    obtain ⟨hname, hnames⟩ := List.forall_mem_cons.1 h
    exact .cons _ _ Terminal.formed_dot trivial
      (.cons _ _ (ident_formed name hname) (ident_ends_dotted names) (ih hnames))

theorem writes_path (first : String) (names : List String)
    (hfirst : isIdentifier first = true) (h : ∀ name ∈ names, isIdentifier name = true) :
    Writes (.ident first :: dotted names) (".".intercalate (first :: names)) := by
  induction names generalizing first with
  | nil => simpa [dotted] using writes_ident first hfirst
  | cons name names ih =>
    obtain ⟨hname, hnames⟩ := List.forall_mem_cons.1 h
    have hrest := writes_append _ _ _ _ writes_dot (ih name hname hnames)
    rw [String.intercalate_cons_cons, String.append_assoc]
    exact writes_append _ _ _ _ (writes_ident first hfirst) hrest

theorem tokenize_path (first : String) (names : List String)
    (h : ∀ name ∈ first :: names, isIdentifier name = true) :
    (tokenize (".".intercalate (first :: names) ++ ".")).map Token.terminal =
      .ident first :: (dotted names ++ [.dot]) := by
  obtain ⟨hfirst, hnames⟩ := List.forall_mem_cons.1 h
  obtain ⟨hformed, htext⟩ :=
    writes_append _ _ _ _ (writes_path first names hfirst hnames) writes_dot
  have hread : Readable (.ident first :: (dotted names ++ [.dot])) :=
    .cons _ _ (ident_formed first hfirst) (ident_ends_dotted names) (dotted_readable names hnames)
  rw [← htext, tokenize, String.toList_ofList]
  exact (tokensFrom_written 0 _ hread).1

theorem kind_of_path (first : String) (names : List String) (ts : List Token)
    (h : ts.map Token.terminal = .ident first :: (dotted names ++ [.dot])) :
    ∀ t ∈ ts, t.kind = .ident ∨ t.kind = .dot := by
  intro t ht
  have hmem : t.terminal ∈ Terminal.ident first :: (dotted names ++ [.dot]) :=
    h ▸ List.mem_map_of_mem ht
  have hname : t.terminal = .dot ∨ ∃ name, t.terminal = .ident name := by
    simp only [dotted, List.mem_cons, List.mem_append, List.mem_flatMap, List.not_mem_nil,
      or_false] at hmem
    rcases hmem with hfirst | ⟨name, _, hdot | hname⟩ | hdot
    · exact .inr ⟨first, hfirst⟩
    · exact .inl hdot
    · exact .inr ⟨name, hname⟩
    · exact .inl hdot
  rcases hname with hdot | ⟨name, hname⟩
  · exact .inr ((terminal_eq_dot t).1 hdot)
  · exact .inl ((terminal_eq_ident t name).1 hname).1

/-- Names and dots end no expression, so all of them are being typed. -/
theorem typedTail_path (tail ts : List Token) (h : ∀ t ∈ ts, t.kind = .ident ∨ t.kind = .dot) :
    typedTail [] tail ts = .ok tail := by
  induction ts with
  | nil => rfl
  | cons t ts ih =>
    obtain ⟨ht, hts⟩ := List.forall_mem_cons.1 h
    rcases ht with ht | ht
    · simp [typedTail, ht, TokenKind.endsExpression, ih hts]
    · simp [typedTail, ht, TokenKind.endsExpression, ih hts]

theorem exists_dotted_links (names : List String) (ts : List Token)
    (h : ts.map Token.terminal = dotted names ++ [.dot]) :
    ∃ links ws d, ts = ws.flatten ++ [d] ∧ d.kind = .dot ∧ List.Forall₂ Link.Dotted links ws ∧
      links.map Link.text = names ∧ ∀ l ∈ links, l.arguments = none := by
  induction names generalizing ts with
  | nil =>
    obtain ⟨d, rfl, hd⟩ := List.map_eq_singleton_iff.1 h
    exact ⟨[], [], d, rfl, (terminal_eq_dot d).1 hd, .nil, rfl, nofun⟩
  | cons name names ih =>
    obtain ⟨d, us, rfl, hd, hus⟩ := List.map_eq_cons_iff.1 h
    obtain ⟨t, us, rfl, ht, hus⟩ := List.map_eq_cons_iff.1 hus
    obtain ⟨links, ws, last, rfl, hlast, hlinks, hnames, hargs⟩ := ih us hus
    have hd := (terminal_eq_dot d).1 hd
    obtain ⟨hkind, rfl⟩ := (terminal_eq_ident t name).1 ht
    refine ⟨⟨t.kind, t.text, none, ⟨t.offset, t.stop⟩⟩ :: links, [d, t] :: ws, last, rfl, hlast,
      .cons ⟨d, [t], rfl, hd, .plain t (.inl hkind)⟩ hlinks, by rw [List.map_cons, hnames], ?_⟩
    exact List.forall_mem_cons.2 ⟨rfl, hargs⟩

/-- A path with a dot at the end is a chain of its first name and the others as fields. -/
theorem splitChain_path (first : String) (names : List String)
    (h : ∀ name ∈ first :: names, isIdentifier name = true) :
    ∃ chain, splitChain (".".intercalate (first :: names) ++ ".") = .ok chain ∧
      chain.head = .name first ∧ chain.segments.map Segment.name = names ∧
      (∀ segment ∈ chain.segments, segment.isCall = false) ∧ chain.stem = "" := by
  have hterminals := tokenize_path first names h
  generalize htokens : tokenize (".".intercalate (first :: names) ++ ".") = ts at hterminals
  have htyped := typedTail_path ts ts (kind_of_path first names ts hterminals)
  obtain ⟨t, us, rfl, ht, hus⟩ := List.map_eq_cons_iff.1 hterminals
  obtain ⟨links, ws, d, rfl, hd, hlinks, hnames, hargs⟩ := exists_dotted_links names us hus
  obtain ⟨hkind, rfl⟩ := (terminal_eq_ident t first).1 ht
  have hplain : Link.Spelled true ⟨t.kind, t.text, none, ⟨t.offset, t.stop⟩⟩ [t] :=
    .plain t (.inl hkind)
  have hhead : Link.toHead ⟨t.kind, t.text, none, ⟨t.offset, t.stop⟩⟩ = .ok (.name t.text) := by
    simp [Link.toHead, hkind]
  refine ⟨⟨t.offset, .name t.text, ⟨t.offset, t.stop⟩, links.map Link.toSegment, ""⟩,
    (splitChain_iff _ _).2 ?_, rfl, ?_, ?_, rfl⟩
  · rw [htokens]
    exact ⟨_, _, htyped, .links _ [t] links ws d [] "" hplain hlinks hd .empty, rfl,
      .inr ⟨_, links, rfl, hhead, rfl, rfl⟩⟩
  · rw [← hnames, List.map_map]
    rfl
  · intro segment hsegment
    obtain ⟨l, hl, rfl⟩ := List.mem_map.1 hsegment
    rw [Segment.isCall, Link.toSegment, hargs l hl]
    rfl

end ScriptConsole
