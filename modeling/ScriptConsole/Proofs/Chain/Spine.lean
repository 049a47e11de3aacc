import ScriptConsole.Proofs.Chain.Layout
import ScriptConsole.Proofs.Expr.Parsing

namespace ScriptConsole

def LinksTree.take : Nat → LinksTree → LinksTree
  | k + 1, .cons member call links => .cons member call (links.take k)
  | _, _ => .nil

theorem deepest_take (t : LinksTree) (k d : Nat) : (t.take k).deepest d ≤ t.deepest d := by
  cases t with
  | nil => cases k <;> exact Nat.le_refl d
  | cons member call links =>
    cases k with
    | zero => exact LinksTree.le_deepest d _
    | succ k =>
      have hlinks := deepest_take links k (d + 1)
      simp only [LinksTree.take, LinksTree.deepest]
      omega
termination_by structural t

/-- The links apply the segments: the same names, called where the segments are. -/
inductive LinksTree.Applies : LinksTree → List Segment → Prop where
  | nil : LinksTree.Applies .nil []
  | cons (s : Segment) (call : CallTree) (links : LinksTree) (segs : List Segment)
      (hcall : call.exprs.isSome = s.isCall) (hlinks : links.Applies segs) :
      LinksTree.Applies (.cons s.name call links) (s :: segs)

theorem noCall_spelled (segs : List Segment) (ws : List (List Token))
    (h : List.Forall₂ Segment.Spelled segs ws) : NoCall (terminals ws.flatten) := by
  cases h with
  | nil => simp [NoCall]
  | cons hs _ =>
    cases hs with
    | field d t hd ht | call d t p c inside hd ht hp hc hin =>
      simp [NoCall, terminals, hd, (terminal_eq_dot d).2 hd]

/-- A call goes on in front of nothing but its opening parenthesis. -/
theorem call_absent (call : CallTree) (w rest : List Terminal) (h : call.yield ++ w = rest)
    (hrest : NoCall rest) : call = .absent ∧ w = rest := by
  cases call with
  | absent => exact ⟨rfl, h⟩
  | empty | args list => exact (hrest (by rw [← h]; rfl)).elim

theorem call_present (call : CallTree) (links : LinksTree) (inside rest : List Terminal)
    (hin : Balanced inside)
    (h : call.yield ++ links.yield = .lParen :: (inside ++ .rParen :: rest)) :
    call.exprs.isSome ∧ call.yield = .lParen :: (inside ++ [.rParen]) ∧ links.yield = rest := by
  cases call with
  | absent => cases links <;> cases h
  | empty =>
    have hcut : [] ++ .rParen :: links.yield = inside ++ .rParen :: rest := (List.cons.inj h).2
    obtain ⟨rfl, hlinks⟩ := balanced_unique [] inside _ _ rfl hin hcut
    exact ⟨rfl, rfl, hlinks⟩
  | args list =>
    have hcut : list.yield ++ .rParen :: links.yield = inside ++ .rParen :: rest := by
      simpa [CallTree.yield] using h
    obtain ⟨rfl, hlinks⟩ := balanced_unique _ inside _ _ (list.nesting_yield 0) hin hcut
    exact ⟨rfl, rfl, hlinks⟩

/-- The grammar cuts a link off where the splitter does. -/
theorem segment_link (s : Segment) (w : List Token) (hs : s.Spelled w) (rest : List Terminal)
    (hrest : NoCall rest) (member : String) (call : CallTree) (links : LinksTree)
    (h : (LinksTree.cons member call links).yield = terminals w ++ rest) :
    member = s.name ∧ call.exprs.isSome = s.isCall ∧
      terminals w = .dot :: .ident member :: call.yield ∧ links.yield = rest := by
  cases hs with
  | field d t hd ht =>
    have hw : terminals [d, t] = [.dot, .ident t.text] := by
      rw [terminals_cons d _ (by simp [hd]), terminals_cons t _ (by simp [ht]),
        (terminal_eq_dot d).2 hd, (terminal_eq_ident t _).2 ⟨ht, rfl⟩]
      rfl
    rw [hw] at h ⊢
    obtain ⟨rfl, hcall⟩ : member = t.text ∧ call.yield ++ links.yield = rest := by
      simpa [LinksTree.yield] using h
    obtain ⟨rfl, hlinks⟩ := call_absent call _ _ hcall hrest
    exact ⟨rfl, rfl, rfl, hlinks⟩
  | call d t p c inside hd ht hp hc hin =>
    have hw : terminals (d :: t :: p :: (inside ++ [c])) =
        .dot :: .ident t.text :: .lParen :: (terminals inside ++ [.rParen]) := by
      rw [terminals_cons d _ (by simp [hd]), terminals_cons t _ (by simp [ht]),
        terminals_cons p _ (by simp [hp]), terminals_append, terminals_cons c _ (by simp [hc]),
        (terminal_eq_dot d).2 hd, (terminal_eq_ident t _).2 ⟨ht, rfl⟩, (terminal_eq_lParen p).2 hp,
        (terminal_eq_rParen c).2 hc]
      rfl
    rw [hw] at h ⊢
    obtain ⟨rfl, hcall⟩ : member = t.text ∧
        call.yield ++ links.yield = .lParen :: (terminals inside ++ .rParen :: rest) := by
      simpa [LinksTree.yield] using h
    obtain ⟨hsome, hyield, hlinks⟩ := call_present call links _ _ hin hcall
    exact ⟨rfl, hsome, by rw [hyield], hlinks⟩

theorem links_apply (segs : List Segment) (ws : List (List Token))
    (h : List.Forall₂ Segment.Spelled segs ws) (t : LinksTree)
    (ht : t.yield = terminals ws.flatten) :
    t.Applies segs ∧ ∀ k, (t.take k).yield = terminals (ws.take k).flatten := by
  induction h generalizing t with
  | nil =>
    cases t with
    | nil => exact ⟨.nil, fun k => by cases k <;> rfl⟩
    | cons member call links => cases ht
  | @cons s w segs ws hs hsegs ih =>
    rw [List.flatten_cons, terminals_append] at ht
    cases t with
    | nil =>
      cases hs with
      | field d t hd _ | call d t p c inside hd _ _ _ _ =>
        rw [terminals_cons d _ (by simp [hd])] at ht
        cases ht
    | cons member call links =>
      obtain ⟨rfl, hcall, hw, hlinks⟩ :=
        segment_link s w hs _ (noCall_spelled segs ws hsegs) member call links ht
      obtain ⟨happ, htake⟩ := ih links hlinks
      refine ⟨.cons s call links segs hcall happ, ?_⟩
      intro k
      cases k with
      | zero => rfl
      | succ k => simp [LinksTree.take, LinksTree.yield, hw, htake k]

/-- The literal that a source text denotes. -/
def decoded? (source : String) : Option Literal :=
  match unquote source with
  | some text => some (.string text)
  | none => (integerValue? source).map .integer

/-- The head of a chain as an expression of its own. -/
def Head.expr? : Head → Option Expr
  | .topLevel => none
  | .name text =>
    match literalWord? text with
    | some l => some (.literal l)
    | none => some (.name text)
  | .literal source => (decoded? source).map .literal

/-- A primary in front of member links is the head alone, since no call goes on with a dot. -/
theorem head_primary (line : String) (t : Token) (hline : t ∈ tokenize line)
    (hkind : t.kind = .ident ∨ t.kind.isLiteral) (first : PrimaryTree) (links : LinksTree)
    (rest : List Terminal) (hrest : NoCall rest)
    (h : first.yield ++ links.yield = t.terminal :: rest) :
    t.head.expr? = some first.expr ∧ first.yield = [t.terminal] ∧ links.yield = rest := by
  cases first with
  | string source text hu =>
    obtain ⟨ht, hlinks⟩ : t.terminal = .string source ∧ links.yield = rest := by
      simpa [PrimaryTree.yield, eq_comm] using h
    obtain ⟨hk, rfl⟩ := (terminal_eq_string t source).1 ht
    refine ⟨?_, by rw [ht]; rfl, hlinks⟩
    simp [Token.head, Head.expr?, decoded?, hk, hu, PrimaryTree.expr]
  | integer digits value hv =>
    obtain ⟨ht, hlinks⟩ : t.terminal = .integer digits ∧ links.yield = rest := by
      simpa [PrimaryTree.yield, eq_comm] using h
    obtain ⟨hk, rfl⟩ := (terminal_eq_integer t digits).1 ht
    have hu := unquote_integer line t hline hk
    refine ⟨?_, by rw [ht]; rfl, hlinks⟩
    simp [Token.head, Head.expr?, decoded?, hk, hu, hv, PrimaryTree.expr]
  | negative digits value hv =>
    obtain ⟨ht, _⟩ := List.cons.inj h
    have hk := ((terminal_eq_minus t).1 ht.symm).1
    simp [hk, TokenKind.isLiteral] at hkind
  | word text value hw =>
    obtain ⟨ht, hlinks⟩ : t.terminal = .ident text ∧ links.yield = rest := by
      simpa [PrimaryTree.yield, eq_comm] using h
    obtain ⟨hk, rfl⟩ := (terminal_eq_ident t text).1 ht
    refine ⟨?_, by rw [ht]; rfl, hlinks⟩
    simp [Token.head, Head.expr?, hk, hw, PrimaryTree.expr]
  | named text hw call =>
    obtain ⟨ht, hcall⟩ : t.terminal = .ident text ∧ call.yield ++ links.yield = rest := by
      simpa [PrimaryTree.yield, eq_comm] using h
    obtain ⟨hk, rfl⟩ := (terminal_eq_ident t text).1 ht
    obtain ⟨rfl, hlinks⟩ := call_absent call _ _ hcall hrest
    refine ⟨?_, by rw [ht]; rfl, hlinks⟩
    simp [Token.head, Head.expr?, hk, hw, PrimaryTree.expr, CallTree.exprs, Expr.named]
  | parens inner =>
    obtain ⟨ht, _⟩ := List.cons.inj h
    have hk := (terminal_eq_lParen t).1 ht.symm
    simp [hk, TokenKind.isLiteral] at hkind

/-- `source` parses as `e`, and each segment put behind it makes a source that parses as the
expression with one more link, up to `last`. -/
inductive Grows : String → Expr → List Segment → Expr → Prop where
  | nil (source : String) (e : Expr) (h : parseExpression source = .ok e) : Grows source e [] e
  | cons (source : String) (e : Expr) (s : Segment) (args : Option (List Expr))
      (segs : List Segment) (last : Expr) (h : parseExpression source = .ok e)
      (hargs : args.isSome = s.isCall)
      (hrest : Grows (AccessChain.extend source [s]) (e.member s.name args) segs last) :
      Grows source e (s :: segs) last

theorem grows_links (links : LinksTree) (segs : List Segment) (happ : links.Applies segs)
    (source : String) (e : Expr)
    (h : ∀ k, parseExpression (AccessChain.extend source (segs.take k)) =
      .ok ((links.take k).onto e)) : Grows source e segs (links.onto e) := by
  induction happ generalizing source e with
  | nil => exact .nil source e (h 0)
  | cons s call links segs hcall hlinks ih =>
    refine .cons source e s call.exprs segs _ (h 0) hcall (ih _ _ ?_)
    intro k
    exact h (k + 1)

/-- When an initial part of a chain parses, its source has grown from the head. -/
theorem front_grows (line : String) (chain : AccessChain) (l : Layout line chain) (k : Nat)
    (e : Expr) (he : parseExpression (chain.front k) = .ok e) :
    ∃ base, chain.head.expr? = some base ∧
      Grows chain.head.source base (chain.segments.take k) e := by
  obtain ⟨⟨first, links⟩, hyield, rfl, hdeep⟩ := (parseExpression_iff _ e).1 he
  have hfirst : l.first ∈ tokenize line := by
    rw [l.tokens]
    simp
  have hblank : l.first.kind ≠ .whitespace := by
    intro hk
    simpa [hk, TokenKind.isLiteral] using l.first_kind
  have hsegs := List.forall₂_take k l.segments
  rw [l.terminals_front k, Layout.front, terminals_cons _ _ hblank, ExprTree.yield] at hyield
  obtain ⟨hbase, hprimary, hlinks⟩ := head_primary line l.first hfirst l.first_kind first links _
    (noCall_spelled _ _ hsegs) hyield.symm
  obtain ⟨happ, htake⟩ := links_apply _ _ hsegs links hlinks
  refine ⟨first.expr, by rw [l.head, hbase], ?_⟩
  refine grows_links links _ happ _ _ ?_
  intro j
  -- the derivation of a shorter part is the front of the derivation
  have hfront : AccessChain.extend chain.head.source ((chain.segments.take k).take j) =
      chain.front (min j k) := by
    rw [List.take_take]
    rfl
  rw [hfront]
  refine (parseExpression_iff _ _).2 ⟨.mk first (links.take j), ?_, rfl, ?_⟩
  · rw [l.terminals_front, Layout.front, terminals_cons _ _ hblank, ExprTree.yield, htake j,
      List.take_take, hprimary]
    rfl
  · obtain ⟨hd₁, hd₂⟩ := Nat.max_le.1 hdeep
    exact Nat.max_le.2 ⟨hd₁, Nat.le_trans (deepest_take links j 1) hd₂⟩

theorem grows_source (source : String) (base last : Expr) (segs : List Segment)
    (h : Grows source base segs last) : parseExpression source = .ok base := by
  cases h with
  | nil _ _ h => exact h
  | cons _ _ s args segs _ h _ _ => exact h

theorem grows_parses (source : String) (base last : Expr) (segs : List Segment)
    (h : Grows source base segs last) :
    parseExpression (AccessChain.extend source segs) = .ok last := by
  induction h with
  | nil source e h => exact h
  | cons source e s args segs last _ _ _ ih => exact ih

theorem grows_split (source : String) (base last : Expr) (segs : List Segment)
    (h : Grows source base segs last) (k : Nat) :
    ∃ mid, Grows source base (segs.take k) mid ∧
      Grows (AccessChain.extend source (segs.take k)) mid (segs.drop k) last := by
  induction h generalizing k with
  | nil source e h => exact ⟨e, by simpa using .nil source e h, by simpa using .nil source e h⟩
  | cons source e s args segs last h hargs hrest ih =>
    cases k with
    | zero => exact ⟨e, .nil source e h, .cons source e s args segs last h hargs hrest⟩
    | succ k =>
      obtain ⟨mid, hfront, hback⟩ := ih k
      exact ⟨mid, .cons source e s args _ mid h hargs hfront, hback⟩

namespace Expr

/-- What stands in front of the last link. -/
def receiver? : Expr → Option Expr
  | field receiver _ => some receiver
  | invoke receiver _ _ => some receiver
  | _ => none

/-- What stands in front of the last `n` links. -/
def inward (e : Expr) : Nat → Option Expr
  | 0 => some e
  | n + 1 => (e.inward n).bind receiver?

/-- What stands in front of all links. -/
def innermost : Expr → Expr
  | field receiver _ => receiver.innermost
  | invoke receiver _ _ => receiver.innermost
  | e => e

/-- The links of an expression, the one applied first in front: the names, and whether they are
called. -/
def spine : Expr → List (String × Bool)
  | field receiver member => receiver.spine ++ [(member, false)]
  | invoke receiver member _ => receiver.spine ++ [(member, true)]
  | _ => []

theorem receiver_member (e : Expr) (name : String) (args : Option (List Expr)) :
    (e.member name args).receiver? = some e := by
  cases args <;> rfl

theorem innermost_member (e : Expr) (name : String) (args : Option (List Expr)) :
    (e.member name args).innermost = e.innermost := by
  cases args <;> rfl

theorem spine_member (e : Expr) (name : String) (args : Option (List Expr)) :
    (e.member name args).spine = e.spine ++ [(name, args.isSome)] := by
  cases args <;> rfl

end Expr

theorem grows_inward (source : String) (base last : Expr) (segs : List Segment)
    (h : Grows source base segs last) : last.inward segs.length = some base := by
  induction h with
  | nil source e _ => rfl
  | cons source e s args segs last _ _ _ ih =>
    rw [List.length_cons, Expr.inward, ih]
    exact Expr.receiver_member e s.name args

theorem grows_innermost (source : String) (base last : Expr) (segs : List Segment)
    (h : Grows source base segs last) : last.innermost = base.innermost := by
  induction h with
  | nil source e _ => rfl
  | cons source e s args segs last _ _ _ ih => rw [ih, Expr.innermost_member]

theorem grows_spine (source : String) (base last : Expr) (segs : List Segment)
    (h : Grows source base segs last) :
    last.spine = base.spine ++ segs.map fun s => (s.name, s.isCall) := by
  induction h with
  | nil source e _ => simp
  | cons source e s args segs last _ hargs _ ih => simp [ih, Expr.spine_member, hargs]

theorem head_bare (head : Head) (base : Expr) (h : head.expr? = some base) :
    base.innermost = base ∧ base.spine = [] := by
  cases head with
  | topLevel => cases h
  | name text =>
    rw [Head.expr?] at h
    split at h <;> cases h <;> exact ⟨rfl, rfl⟩
  | literal source =>
    obtain ⟨l, _, rfl⟩ := Option.map_eq_some_iff.1 h
    exact ⟨rfl, rfl⟩

/-- Where a fragment of a chain parses, its expression applies the segments to the head, each under
its own name and called exactly where the segment is a call.  The shorter fragments then parse
too, as what the expression has in front of its last links. -/
theorem fragment_spine (line : String) (chain : AccessChain) (i : Nat) (e : Expr)
    (hsplit : splitChain line = .ok chain) (hi : i < chain.segments.length)
    (he : parseExpression (chain.fragment i) = .ok e) :
    chain.head.expr? = some e.innermost ∧
      e.spine = (chain.segments.take (i + 1)).map (fun s => (s.name, s.isCall)) ∧
      ∀ j < i, ∃ e', parseExpression (chain.fragment j) = .ok e' ∧ e.inward (i - j) = some e' := by
  have hhead : chain.head ≠ .topLevel := by
    intro htop
    rw [splitChain_topLevel line chain hsplit htop] at hi
    cases hi
  obtain ⟨l⟩ := splitChain_layout line chain hsplit hhead
  rw [fragment_eq_front chain i hi] at he
  obtain ⟨base, hbase, hgrows⟩ := front_grows line chain l (i + 1) e he
  obtain ⟨hinner, hspine⟩ := head_bare chain.head base hbase
  refine ⟨?_, ?_, ?_⟩
  · rw [grows_innermost _ _ _ _ hgrows, hinner, hbase]
  · rw [grows_spine _ _ _ _ hgrows, hspine, List.nil_append]
  · intro j hj
    obtain ⟨mid, hfront, hback⟩ := grows_split _ _ _ _ hgrows (j + 1)
    have htake : (chain.segments.take (i + 1)).take (j + 1) = chain.segments.take (j + 1) := by
      rw [List.take_take, Nat.min_eq_left (by omega)]
    have hlength : ((chain.segments.take (i + 1)).drop (j + 1)).length = i - j := by
      rw [List.length_drop, List.length_take]
      omega
    have hparse := grows_parses _ _ _ _ hfront
    have hin := grows_inward _ _ _ _ hback
    rw [htake] at hparse
    rw [hlength] at hin
    refine ⟨mid, ?_, hin⟩
    rw [fragment_eq_front chain j (by omega)]
    exact hparse

/-- A head and an argument that hold parentheses of their own. -/
theorem fragment_spine_quoted :
    ∃ chain e, splitChain "\"a)\".at('(').c." = .ok chain ∧ 1 < chain.segments.length ∧
      parseExpression (chain.fragment 1) = .ok e ∧
      chain.head.expr? = some e.innermost ∧ e.spine = [("at", true), ("c", false)] ∧
      ∃ e', parseExpression (chain.fragment 0) = .ok e' ∧ e.inward 1 = some e' := by
  have hsplit : splitChain "\"a)\".at('(').c." = .ok ⟨0, .literal "\"a)\"", ⟨0, 4⟩,
      [⟨"at", some ⟨"'('", ⟨8, 11⟩⟩, ⟨5, 12⟩⟩, ⟨"c", none, ⟨13, 14⟩⟩], ""⟩ := by
    decide +kernel
  have hparse : parseExpression "\"a)\".at('(').c" =
      .ok (.field (.invoke (.literal (.string "a)")) "at" [.literal (.string "(")]) "c") :=
    (parseExpression_iff _ _).2 ⟨.mk (.string "\"a)\"" "a)" (by decide +kernel))
      (.cons "at" (.args (.one (.mk (.string "'('" "(" (by decide +kernel)) .nil)))
        (.cons "c" .absent .nil)), by decide +kernel, rfl, by decide⟩
  obtain ⟨hhead, hspine, hshorter⟩ := fragment_spine _ _ 1 _ hsplit (by decide) hparse
  exact ⟨_, _, hsplit, by decide, hparse, hhead, hspine, hshorter 0 (by decide)⟩

end ScriptConsole
