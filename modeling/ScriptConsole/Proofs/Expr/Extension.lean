import ScriptConsole.Proofs.Chain.Completable
import ScriptConsole.Proofs.Chain.Typing
import ScriptConsole.Proofs.Expr.Frame
import ScriptConsole.Proofs.Expr.Lines
import ScriptConsole.Proofs.Resolution.Live
import ScriptConsole.Proofs.Token.Separate

namespace ScriptConsole

mutual

theorem ExprTree.deepest_succ (t : ExprTree) (d : Nat) : t.deepest (d + 1) = t.deepest d + 1 := by
  cases t with
  | mk first links =>
    simp only [ExprTree.deepest, first.deepest_succ, links.deepest_succ, Nat.add_max_add_right]
termination_by structural t

theorem PrimaryTree.deepest_succ (t : PrimaryTree) (d : Nat) :
    t.deepest (d + 1) = t.deepest d + 1 := by
  cases t with
  | named _ _ call => exact call.deepest_succ d
  | parens inner => exact inner.deepest_succ d
  | string | integer | negative | word => rfl
termination_by structural t

theorem LinksTree.deepest_succ (t : LinksTree) (d : Nat) :
    t.deepest (d + 1) = t.deepest d + 1 := by
  cases t with
  | nil => rfl
  | cons member call links =>
    simp only [LinksTree.deepest, call.deepest_succ (d + 1), links.deepest_succ (d + 1),
      Nat.add_max_add_right]
termination_by structural t

theorem CallTree.deepest_succ (t : CallTree) (d : Nat) : t.deepest (d + 1) = t.deepest d + 1 := by
  cases t with
  | absent | empty => rfl
  | args list => exact list.deepest_succ d
termination_by structural t

theorem ArgsTree.deepest_succ (t : ArgsTree) (d : Nat) : t.deepest (d + 1) = t.deepest d + 1 := by
  cases t with
  | one arg => exact arg.deepest_succ d
  | cons arg list =>
    simp only [ArgsTree.deepest, arg.deepest_succ, list.deepest_succ, Nat.add_max_add_right]
termination_by structural t

end

def LinksTree.append : LinksTree → LinksTree → LinksTree
  | .nil, more => more
  | .cons member call links, more => .cons member call (links.append more)

theorem append_onto (t more : LinksTree) (receiver : Expr) :
    (t.append more).onto receiver = more.onto (t.onto receiver) := by
  cases t with
  | nil => rfl
  | cons member call links => exact append_onto links more _
termination_by structural t

theorem deepest_append (t more : LinksTree) (d : Nat) :
    more.deepest d ≤ (t.append more).deepest d := by
  cases t with
  | nil => exact Nat.le_refl _
  | cons member call links =>
    have hlinks := deepest_append links more (d + 1)
    rw [more.deepest_succ] at hlinks
    rw [LinksTree.append, LinksTree.deepest]
    omega
termination_by structural t

theorem exists_append (t u : LinksTree) (w : List Terminal) (h : t.yield ++ w = u.yield)
    (hw : NoCall w) : ∃ more, u = t.append more ∧ more.yield = w := by
  cases t with
  | nil => exact ⟨u, rfl, h.symm⟩
  | cons member call links =>
    cases u with
    | nil => cases h
    | cons member' call' links' =>
      obtain ⟨rfl, hcall⟩ : member = member' ∧
          call.yield ++ (links.yield ++ w) = call'.yield ++ links'.yield := by
        simpa [LinksTree.yield] using h
      have hbehind : NoCall links'.yield := by
        have hnone := noCall_links links' [] (by simp [NoCall])
        rwa [List.append_nil] at hnone
      obtain ⟨rfl, hlinks⟩ := call.yield_unique call' _ _ hcall (noCall_links links w hw) hbehind
      obtain ⟨more, rfl, hmore⟩ := exists_append links links' w hlinks hw
      exact ⟨more, rfl, hmore⟩
termination_by structural t

/-- The text is a sequence of member links, `.name` and `.name(…)`, with blanks or none between the
tokens. -/
def IsLinks (t : String) : Prop :=
  ∃ links : List (List Token), significantTokens t = links.flatten ∧
    ∀ w ∈ links, ∃ d w', w = d :: w' ∧ d.kind = .dot ∧ SegmentTokens w'

/-- The first token of links, when there is one, is a dot, and behind it stands a name. -/
theorem IsLinks.begins {t : String} (h : IsLinks t) :
    significantTokens t = [] ∨ ∃ d name rest, significantTokens t = d :: name :: rest ∧
      d.kind = .dot ∧ name.kind = .ident := by
  obtain ⟨links, hlinks, hsegments⟩ := h
  cases links with
  | nil => exact .inl hlinks
  | cons w links =>
    obtain ⟨d, w', rfl, hd, hsegment⟩ := hsegments w List.mem_cons_self
    right
    cases hsegment with
    | field name hname => exact ⟨d, name, _, hlinks, hd, hname⟩
    | call name p c inside hname => exact ⟨d, name, _, hlinks, hd, hname⟩

theorem IsLinks.noCall {t : String} (h : IsLinks t) :
    NoCall ((significantTokens t).map Token.terminal) := by
  rw [noCall_tokens]
  obtain hnone | ⟨d, name, rest, htokens, hd, _⟩ := h.begins
  · simp [hnone]
  · simp [htokens, hd]

theorem not_digit_of_name {offset : Nat} {c : Char} {cs : List Char} {name : Token}
    {rest : List Token}
    (h : (tokensFrom offset (c :: cs)).filter (·.kind ≠ .whitespace) = name :: rest)
    (hname : name.kind = .ident) : c.isDigit = false := by
  cases hdigit : c.isDigit with
  | false => rfl
  | true =>
    have hkind : (munch c cs).1 = .integer ∨ (munch c cs).1 = .decimal := by
      rw [munch_digit c cs hdigit]
      exact munchNumber_kind cs
    rw [tokensFrom_cons, List.filter_cons_of_pos (by rcases hkind with hk | hk <;> simp [hk])] at h
    obtain ⟨rfl, _⟩ := List.cons.inj h
    rcases hkind with hk | hk <;> cases hk.symm.trans hname

/-- Nothing goes on into links. -/
theorem IsLinks.separate {t : String} (h : IsLinks t) : Separate t.toList := by
  have hbegins := h.begins
  rw [significantTokens, tokenize] at hbegins
  cases hcs : t.toList with
  | nil => exact .nil
  | cons c cs =>
    by_cases hblank : (munch c cs).1 = .whitespace
    · exact .blank c cs (blank_of_munch c cs hblank c List.mem_cons_self)
    · rw [hcs, tokensFrom_cons, List.filter_cons_of_pos (by simpa using hblank)] at hbegins
      obtain hnone | ⟨d, name, rest, htokens, hd, hname⟩ := hbegins
      · cases hnone
      · obtain ⟨rfl, hrest⟩ := List.cons.inj htokens
        have hkind : (munch c cs).1 = .dot := hd
        obtain ⟨hmark, hlength⟩ := munched_punctuation (munch_cases c cs) (by rw [hkind]; rfl)
        rw [hkind] at hmark
        obtain rfl := punctuation_injective c '.' .dot hmark rfl
        rw [hlength, List.drop_zero] at hrest
        refine .dot cs ?_
        intro first hfirst
        obtain ⟨behind, rfl⟩ := List.head?_eq_some_iff.1 hfirst
        exact not_digit_of_name hrest hname

theorem no_unterminated_of_identifier {x : String} (h : isIdentifier x = true) :
    ∀ t ∈ tokenize x, t.kind ≠ .unterminatedString := by
  rw [tokenize_identifier h]
  simp

theorem terminals_behind {front t : String} (ht : IsLinks t)
    (hclosed : ∀ u ∈ tokenize front, u.kind ≠ .unterminatedString) :
    (significantTokens (front ++ t)).map Token.terminal =
      (significantTokens front).map Token.terminal ++
        (significantTokens t).map Token.terminal := by
  rw [significantTokens_append ht.separate hclosed, List.map_append, List.map_map]
  rfl

/-- Links behind the source of an expression apply to this expression. -/
theorem parse_links {source t : String} {e whole : Expr} (ht : IsLinks t)
    (he : parseExpression source = .ok e) (hwhole : parseExpression (source ++ t) = .ok whole) :
    ∃ links : LinksTree, links.yield = (significantTokens t).map Token.terminal ∧
      whole = links.onto e ∧ links.deepest 1 ≤ maxDepth := by
  have hterminals := terminals_behind ht (closed_of_parseExpression he)
  obtain ⟨⟨first, links⟩, hyield, rfl, _⟩ := (parseExpression_iff source e).1 he
  obtain ⟨⟨first', links'⟩, hyield', rfl, hdeep⟩ := (parseExpression_iff _ whole).1 hwhole
  rw [hyield, hyield'] at hterminals
  simp only [ExprTree.yield, List.append_assoc] at hterminals
  have hends : NoCall links'.yield := by
    have hnone := noCall_links links' [] (by simp [NoCall])
    rwa [List.append_nil] at hnone
  obtain ⟨rfl, hlinks⟩ := first'.yield_unique first _ _ hterminals hends
    (noCall_links links _ ht.noCall)
  obtain ⟨more, rfl, hmore⟩ := exists_append links links' _ hlinks.symm ht.noCall
  refine ⟨more, hmore, append_onto links more _, ?_⟩
  have happend := deepest_append links more 1
  rw [ExprTree.deepest, Nat.zero_add] at hdeep
  omega

theorem parse_named_links {x t : String} (hx : isIdentifier x = true) (hword : x ∉ literalWords)
    (ht : IsLinks t) (links : LinksTree)
    (hyield : links.yield = (significantTokens t).map Token.terminal)
    (hdeep : links.deepest 1 ≤ maxDepth) :
    parseExpression (x ++ t) = .ok (links.onto (.name x)) := by
  have hname : (significantTokens x).map Token.terminal = [.ident x] := by
    rw [significantTokens, tokenize_identifier hx]
    rfl
  have hlevel : 1 ≤ links.deepest 1 := links.le_deepest 1
  refine (parseExpression_iff _ _).2
    ⟨.mk (.named x (literalWord_of_not_mem x hword) .absent) links, ?_, rfl, ?_⟩
  · rw [terminals_behind ht (no_unterminated_of_identifier hx), hname, ← hyield]
    rfl
  · simp only [ExprTree.deepest, PrimaryTree.deepest, CallTree.deepest, Nat.zero_add]
    omega

theorem interpret_of_parse (r : Registry) (s : Scope) {source : String} {e : Expr}
    (h : parseExpression source = .ok e) : r.interpret s source = r.evalExpr s e := by
  rw [Registry.interpret, h]

/-- Links behind a source have the value that they have behind a new name for the value of the
source, or the same error. -/
theorem interpret_named_front (r : Registry) (s : Scope) (source t x : String) (v : Value)
    (whole : Expr) (hvalue : r.interpret s source = .ok v) (hx : isIdentifier x = true)
    (hword : x ∉ ["true", "false", "null"]) (ht : IsLinks t) (hfree : ¬ Mentions t x)
    (hparse : parseExpression (source ++ t) = .ok whole) :
    r.interpret s (source ++ t) = r.interpret (s.bind x v) (x ++ t) := by
  obtain ⟨e, he, hdenote⟩ := (interpret_ok r s source v).1 hvalue
  obtain ⟨links, hyield, rfl, hdeep⟩ := parse_links ht he hparse
  have halike : r.Alike s (s.bind x v) links.yield := by
    intro name hname
    rw [hyield] at hname
    refine resolve_bind s x v r.catalog name ?_
    rintro rfl
    exact hfree (mentions_of_terminal hname)
  have hfront : r.denote (s.bind x v) (.name x) = r.denote s e := by
    have hbound : (s.bind x v).binding? x = some v := by rw [binding?_bind, if_pos rfl]
    rw [hdenote, Registry.denote, Scope.resolve, hbound]
  rw [interpret_of_parse r s hparse, interpret_of_parse r (s.bind x v)
    (parse_named_links hx hword ht links hyield hdeep), Registry.evalExpr, Registry.evalExpr,
    links.denote_congr halike e (.name x) hfront]

theorem interpret_named_front_box :
    boxRegistry.interpret boxScope "b.item" =
        .ok (.object "p.Box" [("label", .string "tag")]) ∧
      boxRegistry.interpret boxScope ("b.item" ++ ".self().label") =
        boxRegistry.interpret
          (boxScope.bind "it" (.object "p.Box" [("label", .string "tag")]))
          ("it" ++ ".self().label") := by
  have hitem : boxRegistry.interpret boxScope "b.item" =
      .ok (.object "p.Box" [("label", .string "tag")]) := by
    with_unfolding_all rfl
  have hparse : parseExpression ("b.item" ++ ".self().label") =
      .ok (.field (.invoke (.field (.name "b") "item") "self" []) "label") := by
    with_unfolding_all rfl
  have hlinks : IsLinks ".self().label" := by
    refine ⟨[[⟨.dot, ".", 0⟩, ⟨.ident, "self", 1⟩, ⟨.lParen, "(", 5⟩, ⟨.rParen, ")", 6⟩],
      [⟨.dot, ".", 7⟩, ⟨.ident, "label", 8⟩]], by decide +kernel, ?_⟩
    intro w hw
    rcases List.mem_pair.1 hw with rfl | rfl
    · exact ⟨_, _, rfl, rfl, .call _ _ _ [] rfl rfl rfl ((paired_iff []).2 rfl)⟩
    · exact ⟨_, _, rfl, rfl, .field _ rfl⟩
  exact ⟨hitem, interpret_named_front boxRegistry boxScope _ _ "it" _ _ hitem (by decide)
    (by decide) hlinks (by decide +kernel) hparse⟩

end ScriptConsole
