import Mathlib.Data.List.Infix
import ScriptConsole.Proofs.Expr.Writing

namespace ScriptConsole

mutual

/-- How deep a recursion into receivers and arguments goes. -/
def Expr.depth : Expr → Nat
  | .literal _ => 1
  | .name _ => 1
  | .call _ args => Expr.depthOf args + 1
  | .field receiver _ => receiver.depth + 1
  | .invoke receiver _ args => max receiver.depth (Expr.depthOf args) + 1

/-- The depth of the deepest argument, and `0` when there are none. -/
def Expr.depthOf : List Expr → Nat
  | [] => 0
  | arg :: args => max arg.depth (Expr.depthOf args)

end

def Expr.depthCall : Option (List Expr) → Nat
  | none => 0
  | some args => Expr.depthOf args

theorem depth_named (text : String) (args : Option (List Expr)) :
    (Expr.named text args).depth = Expr.depthCall args + 1 := by
  cases args <;> rfl

theorem depth_member (e : Expr) (member : String) (args : Option (List Expr)) :
    (e.member member args).depth = max e.depth (Expr.depthCall args) + 1 := by
  cases args <;> simp [Expr.member, Expr.depth, Expr.depthCall]

/-- The depth of the deepest expression that fits in so many levels: the links behind an expression
that begins one level further down take a level each once more. -/
def tallest : Nat → Nat
  | 0 => 0
  | levels + 1 => tallest levels + (levels + 1)

theorem tallest_mono {m n : Nat} (h : m ≤ n) : tallest m ≤ tallest n := by
  induction h with
  | refl => exact Nat.le_refl _
  | step _ ih => exact Nat.le_trans ih (Nat.le_add_right _ _)

section Bound
variable (limit : Nat)

mutual

theorem ExprTree.depth_le (t : ExprTree) (d : Nat) (h : t.deepest d ≤ limit) :
    t.expr.depth ≤ tallest (limit - d) := by
  cases t with
  | mk first links =>
    obtain ⟨hfirst, hlinks⟩ := Nat.max_le.1 h
    have hd := links.le_deepest (d + 1)
    have hbase := first.depth_le (d + 1) hfirst
    have hall := links.depth_le (d + 1) first.expr _ hlinks hbase (Nat.le_add_right _ _)
    have hlevels : limit - d = limit - (d + 1) + 1 := by omega
    rw [hlevels, tallest]
    rw [ExprTree.expr]
    omega
termination_by structural t

theorem PrimaryTree.depth_le (t : PrimaryTree) (d : Nat) (h : t.deepest d ≤ limit) :
    t.expr.depth ≤ tallest (limit - d) + 1 := by
  cases t with
  | string | integer | negative | word => exact Nat.le_add_left _ _
  | named text _ call =>
    have hcall := call.depth_le d h
    rw [PrimaryTree.expr, depth_named]
    omega
  | parens inner => exact Nat.le_succ_of_le (inner.depth_le d h)
termination_by structural t

theorem LinksTree.depth_le (t : LinksTree) (d : Nat) (receiver : Expr) (bound : Nat)
    (h : t.deepest d ≤ limit) (hr : receiver.depth ≤ bound) (hb : tallest (limit - d) ≤ bound) :
    (t.onto receiver).depth ≤ bound + (limit - d) := by
  cases t with
  | nil => exact Nat.le_add_right_of_le hr
  | cons member call links =>
    obtain ⟨hcall, hlinks⟩ := Nat.max_le.1 h
    have hd := links.le_deepest (d + 1)
    have hargs := call.depth_le (d + 1) hcall
    have hmono : tallest (limit - (d + 1)) ≤ tallest (limit - d) := tallest_mono (by omega)
    have hnext : (receiver.member member call.exprs).depth ≤ bound + 1 := by
      rw [depth_member]
      omega
    have hall := links.depth_le (d + 1) _ (bound + 1) hlinks hnext (by omega)
    rw [LinksTree.onto]
    omega
termination_by structural t

theorem CallTree.depth_le (t : CallTree) (d : Nat) (h : t.deepest d ≤ limit) :
    Expr.depthCall t.exprs ≤ tallest (limit - d) := by
  cases t with
  | absent | empty => exact Nat.zero_le _
  | args list => exact list.depth_le d h
termination_by structural t

theorem ArgsTree.depth_le (t : ArgsTree) (d : Nat) (h : t.deepest d ≤ limit) :
    Expr.depthOf t.exprs ≤ tallest (limit - d) := by
  cases t with
  | one arg =>
    have harg := arg.depth_le d h
    rw [ArgsTree.exprs, Expr.depthOf, Expr.depthOf]
    omega
  | cons arg list =>
    obtain ⟨harg, hlist⟩ := Nat.max_le.1 h
    rw [ArgsTree.exprs, Expr.depthOf]
    exact Nat.max_le.2 ⟨arg.depth_le d harg, list.depth_le d hlist⟩
termination_by structural t

end

end Bound

/-- A link follows the closing parenthesis of an expression or of a list of arguments. -/
def LinkBehindParen (w : List Terminal) : Prop := ∃ a, a ≠ .lParen ∧ [a, .rParen, .dot] <:+: w

instance (w : List Terminal) : Decidable (LinkBehindParen w) :=
  decidable_of_iff (∃ a ∈ w, a ≠ .lParen ∧ [a, .rParen, .dot] <:+: w) <| by
    constructor
    · rintro ⟨a, _, h⟩
      exact ⟨a, h⟩
    · rintro ⟨a, ha, hw⟩
      exact ⟨a, hw.subset List.mem_cons_self, ha, hw⟩

theorem linkBehindParen_left {v w : List Terminal} (h : ¬ LinkBehindParen (v ++ w)) :
    ¬ LinkBehindParen v := by
  rintro ⟨a, ha, hv⟩
  exact h ⟨a, ha, hv.trans (List.prefix_append v w).isInfix⟩

theorem linkBehindParen_right {v w : List Terminal} (h : ¬ LinkBehindParen (v ++ w)) :
    ¬ LinkBehindParen w := by
  rintro ⟨a, ha, hw⟩
  exact h ⟨a, ha, hw.trans (List.suffix_append v w).isInfix⟩

/-- There are terminals, and the last is no opening parenthesis. -/
def Filled (w : List Terminal) : Prop := ∃ init a, w = init ++ [a] ∧ a ≠ .lParen

theorem filled_singleton (a : Terminal) (ha : a ≠ .lParen) : Filled [a] := ⟨[], a, rfl, ha⟩

theorem Filled.append_left {w : List Terminal} (h : Filled w) (v : List Terminal) :
    Filled (v ++ w) := by
  obtain ⟨init, a, rfl, ha⟩ := h
  exact ⟨v ++ init, a, by simp, ha⟩

theorem Filled.append {v w : List Terminal} (hv : Filled v) (hw : w = [] ∨ Filled w) :
    Filled (v ++ w) := by
  rcases hw with rfl | hw
  · rwa [List.append_nil]
  · exact hw.append_left v

theorem CallTree.yield_filled (t : CallTree) : t.yield = [] ∨ Filled t.yield := by
  have hclose : Filled [.rParen] := filled_singleton _ (by simp)
  cases t with
  | absent => exact .inl rfl
  | empty => exact .inr (hclose.append_left [.lParen])
  | args list => exact .inr (hclose.append_left (.lParen :: list.yield))

theorem PrimaryTree.yield_filled (t : PrimaryTree) : Filled t.yield := by
  cases t with
  | string | integer | word => exact filled_singleton _ (by simp)
  | negative digits => exact (filled_singleton (.integer digits) (by simp)).append_left [.minus]
  | named text _ call => exact (filled_singleton (.ident text) (by simp)).append call.yield_filled
  | parens inner => exact (filled_singleton .rParen (by simp)).append_left (.lParen :: inner.yield)

theorem LinksTree.yield_filled (t : LinksTree) : t.yield = [] ∨ Filled t.yield := by
  cases t with
  | nil => exact .inl rfl
  | cons member call links =>
    have hmember : Filled (.ident member :: (call.yield ++ links.yield)) :=
      ((filled_singleton (.ident member) (by simp)).append call.yield_filled).append
        links.yield_filled
    exact .inr (hmember.append_left [.dot])
termination_by structural t

theorem ExprTree.yield_filled (t : ExprTree) : Filled t.yield := by
  cases t with
  | mk first links => exact first.yield_filled.append links.yield_filled

theorem ArgsTree.yield_filled (t : ArgsTree) : Filled t.yield := by
  cases t with
  | one arg => exact arg.yield_filled
  | cons arg list => exact (list.yield_filled.append_left [.comma]).append_left arg.yield
termination_by structural t

theorem linkBehindParen_meet (v w rest : List Terminal) (hw : Filled w) :
    LinkBehindParen (v ++ (w ++ .rParen :: .dot :: rest)) := by
  obtain ⟨init, a, rfl, ha⟩ := hw
  exact ⟨a, ha, v ++ init, rest, by simp⟩

/-- A call in front of a link would have its arguments in front of the parenthesis. -/
theorem call_depth_of_link (call : CallTree) (v w : List Terminal)
    (h : ¬ LinkBehindParen (v ++ (call.yield ++ .dot :: w))) : Expr.depthCall call.exprs = 0 := by
  cases call with
  | absent | empty => rfl
  | args list =>
    have hmeet := linkBehindParen_meet (v ++ [.lParen]) list.yield w list.yield_filled
    exact absurd (by simpa [CallTree.yield] using hmeet) h

theorem primary_depth_of_link (first : PrimaryTree) (w : List Terminal)
    (h : ¬ LinkBehindParen (first.yield ++ .dot :: w)) : first.expr.depth = 1 := by
  cases first with
  | string | integer | negative | word => rfl
  | named text _ call =>
    rw [PrimaryTree.expr, depth_named, call_depth_of_link call [.ident text] w h]
  | parens inner =>
    have hmeet := linkBehindParen_meet [.lParen] inner.yield w inner.yield_filled
    exact absurd (by simpa [PrimaryTree.yield] using hmeet) h

theorem links_cases (links : LinksTree) : links = .nil ∨ ∃ w, links.yield = .dot :: w := by
  cases links with
  | nil => exact .inl rfl
  | cons member call links => exact .inr ⟨_, rfl⟩

section Straight
variable (limit : Nat)

mutual

theorem ExprTree.depth_le_limit (t : ExprTree) (d : Nat) (h : t.deepest d ≤ limit)
    (hn : ¬ LinkBehindParen t.yield) : d + t.expr.depth ≤ limit := by
  cases t with
  | mk first links =>
    obtain ⟨hfirst, hlinks⟩ := Nat.max_le.1 h
    rw [ExprTree.yield] at hn
    rcases links_cases links with rfl | ⟨w, hw⟩
    · have hbase := first.depth_le_limit (d + 1) hfirst (linkBehindParen_left hn)
      rw [ExprTree.expr, LinksTree.onto]
      omega
    · have hone := primary_depth_of_link first w (by rwa [hw] at hn)
      exact links.depth_le_limit (d + 1) first.expr d hlinks (linkBehindParen_right hn) (by omega)
termination_by structural t

theorem PrimaryTree.depth_le_limit (t : PrimaryTree) (d : Nat) (h : t.deepest d ≤ limit)
    (hn : ¬ LinkBehindParen t.yield) : d + t.expr.depth ≤ limit + 1 := by
  cases t with
  | string | integer | negative | word => exact Nat.succ_le_succ h
  | named text _ call =>
    have hcall := call.depth_le_limit d h (linkBehindParen_right (v := [.ident text]) hn)
    rw [PrimaryTree.expr, depth_named]
    omega
  | parens inner =>
    rw [PrimaryTree.yield, ← List.singleton_append] at hn
    have hin := inner.depth_le_limit d h (linkBehindParen_left (linkBehindParen_right hn))
    rw [PrimaryTree.expr]
    omega
termination_by structural t

theorem LinksTree.depth_le_limit (t : LinksTree) (d : Nat) (receiver : Expr) (start : Nat)
    (h : t.deepest d ≤ limit) (hn : ¬ LinkBehindParen t.yield)
    (hr : start + receiver.depth ≤ d) : start + (t.onto receiver).depth ≤ limit := by
  cases t with
  | nil => exact Nat.le_trans hr h
  | cons member call links =>
    obtain ⟨hcall, hlinks⟩ := Nat.max_le.1 h
    have hd := links.le_deepest (d + 1)
    have hn' : ¬ LinkBehindParen ([.dot, .ident member] ++ (call.yield ++ links.yield)) := hn
    have hargs := call.depth_le_limit (d + 1) hcall
      (linkBehindParen_left (linkBehindParen_right hn'))
    have hnext := depth_member receiver member call.exprs
    rw [LinksTree.onto]
    rcases links_cases links with rfl | ⟨w, hw⟩
    · rw [LinksTree.onto, hnext]
      omega
    · -- with another link behind it, this one has no arguments
      have hzero := call_depth_of_link call [.dot, .ident member] w (by rwa [hw] at hn')
      refine links.depth_le_limit (d + 1) _ start hlinks
        (linkBehindParen_right (linkBehindParen_right hn')) ?_
      rw [hnext, hzero]
      omega
termination_by structural t

theorem CallTree.depth_le_limit (t : CallTree) (d : Nat) (h : t.deepest d ≤ limit)
    (hn : ¬ LinkBehindParen t.yield) : d + Expr.depthCall t.exprs ≤ limit := by
  cases t with
  | absent | empty => exact h
  | args list =>
    rw [CallTree.yield, ← List.singleton_append] at hn
    exact list.depth_le_limit d h (linkBehindParen_left (linkBehindParen_right hn))
termination_by structural t

theorem ArgsTree.depth_le_limit (t : ArgsTree) (d : Nat) (h : t.deepest d ≤ limit)
    (hn : ¬ LinkBehindParen t.yield) : d + Expr.depthOf t.exprs ≤ limit := by
  cases t with
  | one arg =>
    have harg := arg.depth_le_limit d h hn
    rw [ArgsTree.exprs, Expr.depthOf, Expr.depthOf]
    omega
  | cons arg list =>
    obtain ⟨harg, hlist⟩ := Nat.max_le.1 h
    rw [ArgsTree.yield] at hn
    have ha := arg.depth_le_limit d harg (linkBehindParen_left hn)
    rw [← List.singleton_append] at hn
    have hl := list.depth_le_limit d hlist (linkBehindParen_right (linkBehindParen_right hn))
    rw [ArgsTree.exprs, Expr.depthOf]
    omega
termination_by structural t

end

end Straight

/-- How many links and opening parentheses there are. -/
def nestings (w : List Terminal) : Nat := w.countP fun a => a == .dot || a == .lParen

theorem nestings_append (v w : List Terminal) : nestings (v ++ w) = nestings v + nestings w :=
  List.countP_append

theorem nestings_le_cons (a : Terminal) (w : List Terminal) : nestings w ≤ nestings (a :: w) :=
  (List.sublist_cons_self a w).countP_le

theorem nestings_dot (w : List Terminal) : nestings (.dot :: w) = nestings w + 1 :=
  List.countP_cons_of_pos rfl

theorem nestings_lParen (w : List Terminal) : nestings (.lParen :: w) = nestings w + 1 :=
  List.countP_cons_of_pos rfl

mutual

theorem ExprTree.depth_le_nestings (t : ExprTree) : t.expr.depth ≤ nestings t.yield + 1 := by
  cases t with
  | mk first links =>
    have hfirst := first.depth_le_nestings
    have hall := links.depth_le_nestings first.expr (nestings first.yield + 1) hfirst
      (Nat.le_add_left _ _)
    rw [ExprTree.expr, ExprTree.yield, nestings_append]
    omega
termination_by structural t

theorem PrimaryTree.depth_le_nestings (t : PrimaryTree) : t.expr.depth ≤ nestings t.yield + 1 := by
  cases t with
  | string | integer | negative | word => exact Nat.le_add_left _ _
  | named text _ call =>
    have hcall := call.depth_le_nestings
    have hname := nestings_le_cons (.ident text) call.yield
    rw [PrimaryTree.expr, PrimaryTree.yield, depth_named]
    omega
  | parens inner =>
    have hin := inner.depth_le_nestings
    rw [PrimaryTree.expr, PrimaryTree.yield, nestings_lParen, nestings_append]
    omega
termination_by structural t

theorem LinksTree.depth_le_nestings (t : LinksTree) (receiver : Expr) (bound : Nat)
    (hr : receiver.depth ≤ bound) (hb : 1 ≤ bound) :
    (t.onto receiver).depth ≤ bound + nestings t.yield := by
  cases t with
  | nil => exact Nat.le_add_right_of_le hr
  | cons member call links =>
    have hcall := call.depth_le_nestings
    have hnext : (receiver.member member call.exprs).depth ≤ bound + nestings call.yield + 1 := by
      rw [depth_member]
      omega
    have hall := links.depth_le_nestings _ _ hnext (Nat.le_add_left _ _)
    have hname := nestings_le_cons (.ident member) (call.yield ++ links.yield)
    rw [nestings_append] at hname
    rw [LinksTree.onto, LinksTree.yield, nestings_dot]
    omega
termination_by structural t

theorem CallTree.depth_le_nestings (t : CallTree) : Expr.depthCall t.exprs ≤ nestings t.yield := by
  cases t with
  | absent | empty => exact Nat.zero_le _
  | args list =>
    have hlist := list.depth_le_nestings
    rw [CallTree.exprs, CallTree.yield, Expr.depthCall, nestings_lParen, nestings_append]
    omega
termination_by structural t

theorem ArgsTree.depth_le_nestings (t : ArgsTree) :
    Expr.depthOf t.exprs ≤ nestings t.yield + 1 := by
  cases t with
  | one arg =>
    have harg := arg.depth_le_nestings
    rw [ArgsTree.exprs, ArgsTree.yield, Expr.depthOf, Expr.depthOf]
    omega
  | cons arg list =>
    have harg := arg.depth_le_nestings
    have hlist := list.depth_le_nestings
    have hcomma := nestings_le_cons .comma list.yield
    rw [ArgsTree.exprs, ArgsTree.yield, Expr.depthOf, nestings_append]
    omega
termination_by structural t

end

def Statement.value : Statement → Expr
  | assign _ value => value
  | expr value => value

/-- The text is an expression, or a statement with this expression. -/
def ReadAs (source : String) (e : Expr) : Prop :=
  parseExpression source = .ok e ∨ ∃ s, parseStatement source = .ok s ∧ s.value = e

theorem atEnd_ok {α : Type} (value v : α) (ts : List Token) (h : atEnd value ts = .ok v) :
    value = v := by
  cases ts with
  | nil =>
    cases h
    rfl
  | cons t ts => cases h

theorem closingExpression_reads (ts : List Token) (e : Expr) (h : closingExpression ts = .ok e) :
    ∃ rest, Reads (expression maxDepth) ts e rest := by
  obtain ⟨⟨value, rest, hlt⟩, hread, hend⟩ := (bind_ok_iff _ _ _).1 h
  have hvalue : value = e := by
    cases rest with
    | nil =>
      cases hend
      rfl
    | cons t rest =>
      dsimp only at hend
      split at hend
      · exact atEnd_ok value e rest hend
      · exact atEnd_ok value e (t :: rest) hend
  subst hvalue
  exact ⟨rest, hlt, hread⟩

theorem parseStatement_reads (source : String) (s : Statement) (h : parseStatement source = .ok s) :
    ∃ ts rest, ts <:+ significantTokens source ∧ Reads (expression maxDepth) ts s.value rest := by
  unfold parseStatement at h
  split at h
  · next target eq ts hts =>
    rw [hts]
    split at h
    · obtain ⟨e, he, rfl⟩ := (map_ok_iff _ _ _).1 h
      obtain ⟨rest, hr⟩ := closingExpression_reads ts e he
      exact ⟨ts, rest, List.suffix_append [target, eq] ts, hr⟩
    · obtain ⟨e, he, rfl⟩ := (map_ok_iff _ _ _).1 h
      obtain ⟨rest, hr⟩ := closingExpression_reads _ e he
      exact ⟨_, rest, List.suffix_rfl, hr⟩
  · obtain ⟨e, he, rfl⟩ := (map_ok_iff _ _ _).1 h
    obtain ⟨rest, hr⟩ := closingExpression_reads _ e he
    exact ⟨_, rest, List.suffix_rfl, hr⟩

theorem readAs_derivation (source : String) (e : Expr) (h : ReadAs source e) :
    ∃ t : ExprTree, t.expr = e ∧ t.deepest 0 ≤ maxDepth ∧
      t.yield <:+: (significantTokens source).map Token.terminal := by
  obtain ⟨ts, rest, hsuffix, hr⟩ : ∃ ts rest, ts <:+ significantTokens source ∧
      Reads (expression maxDepth) ts e rest := by
    rcases h with h | ⟨s, h, rfl⟩
    · exact ⟨_, [], List.suffix_rfl, (parseExpression_ok source e).1 h⟩
    · exact parseStatement_reads source s h
  obtain ⟨t, hs, he, hdeep⟩ := expression_derived maxDepth maxDepth (Nat.le_refl _) ts e rest hr
  rw [Nat.sub_self] at hdeep
  refine ⟨t, he, hdeep, List.IsInfix.trans ?_ (hsuffix.map Token.terminal).isInfix⟩
  rw [spells_map _ _ _ hs]
  exact (List.prefix_append _ _).isInfix

def LinksTree.fields : Nat → LinksTree
  | 0 => .nil
  | n + 1 => .cons "a" .absent (.fields n)

section Fields
variable (n : Nat)

theorem fields_formed : ∀ a ∈ (LinksTree.fields n).yield, a.Formed := by
  induction n with
  | zero => simp [LinksTree.fields, LinksTree.yield]
  | succ n ih =>
    have ha : (Terminal.ident "a").Formed := .ident 'a' [] (by decide) (by simp)
    simpa [LinksTree.fields, LinksTree.yield, CallTree.yield] using ⟨Terminal.formed_dot, ha, ih⟩

theorem fields_deepest (d : Nat) : (LinksTree.fields n).deepest d = d + n := by
  induction n generalizing d with
  | zero => rfl
  | succ n ih =>
    simp only [LinksTree.fields, LinksTree.deepest, CallTree.deepest, ih]
    omega

theorem fields_depth (e : Expr) : ((LinksTree.fields n).onto e).depth = e.depth + n := by
  induction n generalizing e with
  | zero => rfl
  | succ n ih =>
    rw [LinksTree.fields, LinksTree.onto, ih, CallTree.exprs, Expr.member, Expr.depth]
    omega

end Fields

/-- On each level a call whose argument takes all levels below, and as many fields as there are
levels left. -/
def ExprTree.tower : Nat → ExprTree
  | 0 => .mk (.named "x" rfl .absent) .nil
  | n + 1 => .mk (.named "f" rfl (.args (.one (tower n)))) (.fields (n + 1))

theorem formed_x : (Terminal.ident "x").Formed := .ident 'x' [] (by decide) (by simp)

theorem tower_formed (n : Nat) : ∀ a ∈ (ExprTree.tower n).yield, a.Formed := by
  induction n with
  | zero =>
    simpa [ExprTree.tower, ExprTree.yield, PrimaryTree.yield, CallTree.yield, LinksTree.yield]
      using formed_x
  | succ n ih =>
    have hf : (Terminal.ident "f").Formed := .ident 'f' [] (by decide) (by simp)
    have hcall : ∀ a ∈ (CallTree.args (.one (.tower n))).yield, a.Formed := by
      rw [CallTree.yield, ArgsTree.yield, List.forall_mem_cons, List.forall_mem_append,
        List.forall_mem_singleton]
      exact ⟨Terminal.formed_lParen, ih, Terminal.formed_rParen⟩
    simp only [ExprTree.tower, ExprTree.yield, PrimaryTree.yield, List.forall_mem_append,
      List.forall_mem_cons]
    exact ⟨⟨hf, hcall⟩, fields_formed (n + 1)⟩

theorem tower_deepest (n d : Nat) : (ExprTree.tower n).deepest d = d + (n + 1) := by
  induction n generalizing d with
  | zero =>
    simp only [ExprTree.tower, ExprTree.deepest, PrimaryTree.deepest, CallTree.deepest,
      LinksTree.deepest]
    omega
  | succ n ih =>
    simp only [ExprTree.tower, ExprTree.deepest, PrimaryTree.deepest, CallTree.deepest,
      ArgsTree.deepest, ih, fields_deepest]
    omega

theorem tower_depth (n : Nat) : (ExprTree.tower n).expr.depth = tallest (n + 1) := by
  induction n with
  | zero => rfl
  | succ n ih =>
    simp only [ExprTree.tower, ExprTree.expr, fields_depth, PrimaryTree.expr, depth_named,
      CallTree.exprs, Expr.depthCall, ArgsTree.exprs, Expr.depthOf, ih]
    have hlevel : tallest (n + 1 + 1) = tallest (n + 1) + (n + 1 + 1) := rfl
    omega

/-- The bound on the depth is reached with all levels taken. -/
theorem parseExpression_tower (n : Nat) (h : n < maxDepth) :
    ∃ e, parseExpression (String.ofList (written (ExprTree.tower n).yield)) = .ok e ∧
      e.depth = tallest (n + 1) := by
  have hdeep : (ExprTree.tower n).deepest 0 ≤ maxDepth := by
    rw [tower_deepest]
    omega
  exact ⟨_, (parseExpression_written _ (tower_formed n)).2 hdeep, tower_depth n⟩

def ExprTree.fieldsTwice (n : Nat) : ExprTree :=
  .mk (.parens (.mk (.named "x" rfl .absent) (.fields n))) (.fields n)

theorem fieldsTwice_formed (n : Nat) : ∀ a ∈ (ExprTree.fieldsTwice n).yield, a.Formed := by
  simp only [ExprTree.fieldsTwice, ExprTree.yield, PrimaryTree.yield, CallTree.yield,
    List.forall_mem_append, List.forall_mem_cons]
  have hinner := fields_formed n
  exact ⟨⟨Terminal.formed_lParen, ⟨⟨formed_x, by simp⟩, hinner⟩, Terminal.formed_rParen, by simp⟩,
    hinner⟩

theorem fieldsTwice_deepest (n d : Nat) : (ExprTree.fieldsTwice n).deepest d = d + 2 + n := by
  simp only [ExprTree.fieldsTwice, ExprTree.deepest, PrimaryTree.deepest, CallTree.deepest,
    fields_deepest]
  omega

theorem fieldsTwice_depth (n : Nat) : (ExprTree.fieldsTwice n).expr.depth = 1 + n + n := by
  simp only [ExprTree.fieldsTwice, ExprTree.expr, PrimaryTree.expr, fields_depth, depth_named,
    CallTree.exprs, Expr.depthCall, Nat.zero_add]

/-- No expression is deeper than the sum of all levels.  None is deeper than the limit where no
link follows the closing parenthesis of an expression or of arguments, and none in a text with
fewer links and parentheses than levels. -/
theorem readAs_depth (source : String) (e : Expr) (h : ReadAs source e) :
    e.depth ≤ 8256 ∧
      (¬ LinkBehindParen ((significantTokens source).map Token.terminal) ∨
        nestings ((significantTokens source).map Token.terminal) < 128 → e.depth ≤ 128) := by
  obtain ⟨t, rfl, hdeep, hin⟩ := readAs_derivation source e h
  constructor
  · exact t.depth_le maxDepth 0 hdeep
  · intro hw
    rcases hw with hstraight | hfew
    · have hle := t.depth_le_limit maxDepth 0 hdeep fun ⟨a, ha, hl⟩ =>
        hstraight ⟨a, ha, hl.trans hin⟩
      rwa [Nat.zero_add] at hle
    · have hle := t.depth_le_nestings
      have hcount : nestings t.yield ≤ nestings ((significantTokens source).map Token.terminal) :=
        hin.sublist.countP_le
      omega

theorem readAs_depth_calls :
    ∃ e, ReadAs "n = s.trim().at(f(x))" e ∧
      ¬ LinkBehindParen ((significantTokens "n = s.trim().at(f(x))").map Token.terminal) ∧
      e.depth ≤ 8256 ∧ e.depth ≤ 128 := by
  have hs : (parseStatement "n = s.trim().at(f(x))").isOk = true := by decide +kernel
  obtain ⟨s, hs⟩ : ∃ s, parseStatement "n = s.trim().at(f(x))" = .ok s := by
    cases h : parseStatement "n = s.trim().at(f(x))" with
    | ok s => exact ⟨s, rfl⟩
    | error _ => simp [h, Except.isOk, Except.toBool] at hs
  have hread : ReadAs "n = s.trim().at(f(x))" s.value := .inr ⟨s, hs, rfl⟩
  have hn : ¬ LinkBehindParen ((significantTokens "n = s.trim().at(f(x))").map Token.terminal) := by
    decide +kernel
  obtain ⟨hmost, hlimit⟩ := readAs_depth _ _ hread
  exact ⟨s.value, hread, hn, hmost, hlimit (.inl hn)⟩

/-- The chains inside and behind the parentheses are each half as long as the limit. -/
theorem depth_exceeds_limit :
    ∃ e, parseExpression ("(x" ++ String.join (List.replicate 64 ".a") ++ ")" ++
      String.join (List.replicate 64 ".a")) = .ok e ∧ e.depth = 129 := by
  have htext : "(x" ++ String.join (List.replicate 64 ".a") ++ ")" ++
      String.join (List.replicate 64 ".a") =
        String.ofList (written (ExprTree.fieldsTwice 64).yield) := by
    decide +kernel
  have hdeep : (ExprTree.fieldsTwice 64).deepest 0 ≤ maxDepth := by
    rw [fieldsTwice_deepest]
    decide
  rw [htext]
  exact ⟨_, (parseExpression_written _ (fieldsTwice_formed 64)).2 hdeep, fieldsTwice_depth 64⟩

end ScriptConsole
