import ScriptConsole.Chain.Split
import ScriptConsole.Proofs.Expr.Grammar

namespace ScriptConsole

/-- How many parentheses are open behind a text in front of which `n` are.  Nothing when one is
closed that was not opened. -/
def nesting : Nat → List Terminal → Option Nat
  | n, [] => some n
  | n, .lParen :: w => nesting (n + 1) w
  | 0, .rParen :: _ => none
  | n + 1, .rParen :: w => nesting n w
  | n, _ :: w => nesting n w

/-- Every parenthesis is closed, and none before it is opened. -/
def Balanced (w : List Terminal) : Prop := nesting 0 w = some 0

@[simp] theorem nesting_nil (n : Nat) : nesting n [] = some n := by
  cases n <;> rfl

@[simp] theorem nesting_lParen (n : Nat) (w : List Terminal) :
    nesting n (.lParen :: w) = nesting (n + 1) w := by
  cases n <;> rfl

@[simp] theorem nesting_rParen (n : Nat) (w : List Terminal) :
    nesting (n + 1) (.rParen :: w) = nesting n w := rfl

@[simp] theorem nesting_other (n : Nat) (a : Terminal) (w : List Terminal) (hl : a ≠ .lParen)
    (hr : a ≠ .rParen) : nesting n (a :: w) = nesting n w := by
  cases a <;> first | rfl | exact absurd rfl hl | exact absurd rfl hr

theorem nesting_append (n : Nat) (v w : List Terminal) :
    nesting n (v ++ w) = (nesting n v).bind (nesting · w) := by
  induction v generalizing n with
  | nil => rfl
  | cons a v ih =>
    by_cases hl : a = .lParen
    · subst hl
      exact ih (n + 1)
    · by_cases hr : a = .rParen
      · subst hr
        cases n with
        | zero => rfl
        | succ n => exact ih n
      · rw [List.cons_append, nesting_other n a _ hl hr, nesting_other n a v hl hr, ih]

/-- Cut at a closing parenthesis that it does not open, a text has one balanced front. -/
theorem balanced_unique (v w x y : List Terminal) (hv : Balanced v) (hw : Balanced w)
    (h : v ++ .rParen :: x = w ++ .rParen :: y) : v = w ∧ x = y := by
  -- a longer front would close the parenthesis behind the shorter one
  have longer : ∀ v c x : List Terminal, Balanced v → ¬ Balanced (v ++ .rParen :: c) := by
    intro v c x hv hc
    rw [Balanced, nesting_append, show nesting 0 v = some 0 from hv] at hc
    cases hc
  obtain ⟨c, rfl, hc⟩ | ⟨c, rfl, hc⟩ := List.append_eq_append_iff.1 h
  · cases c with
    | nil => exact ⟨(List.append_nil v).symm, (List.cons.inj hc).2⟩
    | cons a c =>
      obtain ⟨rfl, _⟩ := List.cons.inj hc
      exact (longer v c x hv hw).elim
  · cases c with
    | nil => exact ⟨List.append_nil w, (List.cons.inj hc).2.symm⟩
    | cons a c =>
      obtain ⟨rfl, _⟩ := List.cons.inj hc
      exact (longer w c x hw hv).elim

mutual

theorem ExprTree.nesting_yield (t : ExprTree) (n : Nat) : nesting n t.yield = some n := by
  cases t with
  | mk first links =>
    rw [ExprTree.yield, nesting_append, first.nesting_yield]
    exact links.nesting_yield n
termination_by structural t

theorem PrimaryTree.nesting_yield (t : PrimaryTree) (n : Nat) : nesting n t.yield = some n := by
  cases t with
  | string | integer | negative | word => simp [PrimaryTree.yield]
  | named text _ call =>
    have hc := call.nesting_yield n
    simpa [PrimaryTree.yield] using hc
  | parens inner =>
    have hi := inner.nesting_yield (n + 1)
    simp [PrimaryTree.yield, nesting_append, hi]
termination_by structural t

theorem LinksTree.nesting_yield (t : LinksTree) (n : Nat) : nesting n t.yield = some n := by
  cases t with
  | nil => simp [LinksTree.yield]
  | cons member call links =>
    have hc := call.nesting_yield n
    have hl := links.nesting_yield n
    simp [LinksTree.yield, nesting_append, hc, hl]
termination_by structural t

theorem CallTree.nesting_yield (t : CallTree) (n : Nat) : nesting n t.yield = some n := by
  cases t with
  | absent | empty => simp [CallTree.yield]
  | args list =>
    have hl := list.nesting_yield (n + 1)
    simp [CallTree.yield, nesting_append, hl]
termination_by structural t

theorem ArgsTree.nesting_yield (t : ArgsTree) (n : Nat) : nesting n t.yield = some n := by
  cases t with
  | one arg => exact arg.nesting_yield n
  | cons arg list =>
    have ha := arg.nesting_yield n
    have hl := list.nesting_yield n
    simp [ArgsTree.yield, nesting_append, ha, hl]
termination_by structural t

end

/-- The terminals of tokens, blanks left out. -/
def terminals (ts : List Token) : List Terminal :=
  (ts.filter (·.kind ≠ .whitespace)).map Token.terminal

@[simp] theorem terminals_nil : terminals [] = [] := rfl

theorem terminals_cons (t : Token) (ts : List Token) (h : t.kind ≠ .whitespace) :
    terminals (t :: ts) = t.terminal :: terminals ts := by
  simp [terminals, h]

@[simp] theorem terminals_append (ts us : List Token) :
    terminals (ts ++ us) = terminals ts ++ terminals us := by
  simp [terminals]

theorem terminals_blank (t : Token) (ts : List Token) (h : t.kind = .whitespace) :
    terminals (t :: ts) = terminals ts := by
  simp [terminals, h]

theorem nesting_open (n : Nat) (t : Token) (ts : List Token) (h : t.kind = .lParen) :
    nesting n (terminals (t :: ts)) = nesting (n + 1) (terminals ts) := by
  rw [terminals_cons t ts (by simp [h]), (terminal_eq_lParen t).2 h, nesting_lParen]

theorem nesting_close (n : Nat) (t : Token) (ts : List Token) (h : t.kind = .rParen) :
    nesting (n + 1) (terminals (t :: ts)) = nesting n (terminals ts) := by
  rw [terminals_cons t ts (by simp [h]), (terminal_eq_rParen t).2 h, nesting_rParen]

theorem nesting_close_unopened (t : Token) (ts : List Token) (h : t.kind = .rParen) :
    nesting 0 (terminals (t :: ts)) = none := by
  rw [terminals_cons t ts (by simp [h]), (terminal_eq_rParen t).2 h]
  rfl

theorem nesting_plain (n : Nat) (t : Token) (ts : List Token) (hl : t.kind ≠ .lParen)
    (hr : t.kind ≠ .rParen) : nesting n (terminals (t :: ts)) = nesting n (terminals ts) := by
  by_cases hb : t.kind = .whitespace
  · rw [terminals_blank t ts hb]
  · rw [terminals_cons t ts hb]
    refine nesting_other _ _ _ ?_ ?_
    · rwa [ne_eq, terminal_eq_lParen]
    · rwa [ne_eq, terminal_eq_rParen]

theorem closeGroup?_plain (depth : Nat) (t : Token) (ts : List Token) (hl : t.kind ≠ .lParen)
    (hr : t.kind ≠ .rParen) :
    closeGroup? depth (t :: ts) = (closeGroup? depth ts).map (.cons t) := by
  simp [closeGroup?, hr]

/-- A token closes the group, or it belongs to the inside and counts there as in any text. -/
theorem closeGroup?_cons (depth : Nat) (t : Token) (ts : List Token) :
    t.kind = .rParen ∧ depth = 0 ∧ closeGroup? depth (t :: ts) = some ⟨[], t, ts⟩ ∨
      ∃ d, closeGroup? depth (t :: ts) = (closeGroup? d ts).map (.cons t) ∧
        ∀ w, nesting depth (terminals (t :: w)) = nesting d (terminals w) := by
  by_cases hl : t.kind = .lParen
  · right
    refine ⟨depth + 1, ?_, fun w => nesting_open depth t w hl⟩
    simp [closeGroup?, hl]
  · by_cases hr : t.kind = .rParen
    · cases depth with
      | zero =>
        left
        refine ⟨hr, rfl, ?_⟩
        simp [closeGroup?, hr]
      | succ d =>
        right
        refine ⟨d, ?_, fun w => nesting_close d t w hr⟩
        simp [closeGroup?, hr]
    · right
      exact ⟨depth, closeGroup?_plain depth t ts hl hr, fun w => nesting_plain depth t w hl hr⟩

theorem closeGroup?_some (depth : Nat) (ts : List Token) (g : Group)
    (h : closeGroup? depth ts = some g) :
    ts = g.inside ++ g.close :: g.rest ∧ g.close.kind = .rParen ∧
      nesting depth (terminals g.inside) = some 0 := by
  induction ts generalizing depth g with
  | nil => cases h
  | cons t ts ih =>
    obtain ⟨hk, rfl, hclose⟩ | ⟨d, hinside, hnest⟩ := closeGroup?_cons depth t ts
    · cases hclose.symm.trans h
      exact ⟨rfl, hk, rfl⟩
    · rw [hinside] at h
      obtain ⟨g, hg, rfl⟩ := Option.map_eq_some_iff.1 h
      obtain ⟨hts, hc, hin⟩ := ih d g hg
      exact ⟨congrArg (t :: ·) hts, hc, (hnest g.inside).trans hin⟩

/-- The tokens in front of the inside, none of which ends the group. -/
def Group.behind (front : List Token) (g : Group) : Group := ⟨front ++ g.inside, g.close, g.rest⟩

/-- The search goes on behind a front of the inside, at the depth that the front leaves open. -/
theorem closeGroup?_front {depth d : Nat} {front : List Token} (more : List Token)
    (h : nesting depth (terminals front) = some d) :
    closeGroup? depth (front ++ more) = (closeGroup? d more).map (.behind front) := by
  induction front generalizing depth with
  | nil =>
    rw [terminals_nil, nesting_nil] at h
    cases h
    exact Option.map_id'.symm
  | cons t front ih =>
    rw [List.cons_append]
    obtain ⟨hk, rfl, _⟩ | ⟨depth', hinside, hnest⟩ := closeGroup?_cons depth t (front ++ more)
    · rw [nesting_close_unopened t front hk] at h
      cases h
    · rw [hnest] at h
      rw [hinside, ih h, Option.map_map]
      rfl

/-- A group ends at the first parenthesis that its inside does not open. -/
theorem closeGroup?_of_nesting (depth : Nat) (inside rest : List Token) (c : Token)
    (hc : c.kind = .rParen) (h : nesting depth (terminals inside) = some 0) :
    closeGroup? depth (inside ++ c :: rest) = some ⟨inside, c, rest⟩ := by
  rw [closeGroup?_front (c :: rest) h]
  simp [closeGroup?, hc, Group.behind]

theorem exists_closeGroup? {depth : Nat} {ts : List Token}
    (h : nesting (depth + 1) (terminals ts) = some 0) : ∃ g, closeGroup? depth ts = some g := by
  induction ts generalizing depth with
  | nil => cases h
  | cons t ts ih =>
    by_cases hl : t.kind = .lParen
    · rw [nesting_open _ t ts hl] at h
      obtain ⟨g, hg⟩ := ih h
      exact ⟨g.cons t, by simp [closeGroup?, hl, hg]⟩
    · by_cases hr : t.kind = .rParen
      · cases depth with
        | zero => exact ⟨⟨[], t, ts⟩, by simp [closeGroup?, hr]⟩
        | succ depth =>
          rw [nesting_close _ t ts hr] at h
          obtain ⟨g, hg⟩ := ih h
          exact ⟨g.cons t, by simp [closeGroup?, hr, hg]⟩
      · rw [nesting_plain _ t ts hl hr] at h
        obtain ⟨g, hg⟩ := ih h
        exact ⟨g.cons t, by rw [closeGroup?_plain depth t ts hl hr, hg]; rfl⟩

def openings (ts : List Token) : Nat := ts.countP (·.kind = .lParen)

def closings (ts : List Token) : Nat := ts.countP (·.kind = .rParen)

theorem openings_cons_open {p : Token} (hp : p.kind = .lParen) (ts : List Token) :
    openings (p :: ts) = openings ts + 1 ∧ closings (p :: ts) = closings ts := by
  simp [openings, closings, hp]

/-- No front of the tokens closes more parentheses than it opens, and the whole closes as many as
it opens. -/
structure Paired (ts : List Token) : Prop where
  fronts : ∀ front, front <+: ts → closings front ≤ openings front
  total : openings ts = closings ts

theorem forall_prefix_cons {α : Type} (P : List α → Prop) (x : α) (xs : List α) :
    (∀ front, front <+: x :: xs → P front) ↔ P [] ∧ ∀ front, front <+: xs → P (x :: front) := by
  constructor
  · intro h
    exact ⟨h [] List.nil_prefix, fun front hf => h _ (List.cons_prefix_cons.2 ⟨rfl, hf⟩)⟩
  · rintro ⟨hnil, hcons⟩ front hf
    obtain rfl | ⟨rest, rfl, hrest⟩ := List.prefix_cons_iff.1 hf
    · exact hnil
    · exact hcons rest hrest

/-- The depth behind a text counts what it opens against what it closes. -/
theorem nesting_eq_some_iff (n m : Nat) (ts : List Token) :
    nesting n (terminals ts) = some m ↔
      (∀ front, front <+: ts → closings front ≤ n + openings front) ∧
        n + openings ts = m + closings ts := by
  induction ts generalizing n with
  | nil => simp [openings, closings]
  | cons t ts ih =>
    rw [forall_prefix_cons]
    by_cases hl : t.kind = .lParen
    · rw [nesting_open n t ts hl, ih]
      simp [openings, closings, hl, Nat.add_assoc, Nat.add_comm 1]
    · by_cases hr : t.kind = .rParen
      · cases n with
        | zero =>
          rw [nesting_close_unopened t ts hr]
          constructor
          · intro h
            cases h
          · rintro ⟨⟨_, hfronts⟩, _⟩
            have hfirst := hfronts [] List.nil_prefix
            simp [openings, closings, hr] at hfirst
        | succ n =>
          rw [nesting_close n t ts hr, ih]
          simp only [openings, closings, hr, List.countP_cons, List.countP_nil, decide_true,
            reduceCtorEq, decide_false, Bool.false_eq_true, if_true, if_false]
          grind
      · rw [nesting_plain n t ts hl hr, ih]
        simp [openings, closings, hl, hr]

theorem paired_iff (ts : List Token) : Paired ts ↔ Balanced (terminals ts) := by
  rw [Balanced, nesting_eq_some_iff]
  simp only [Nat.zero_add]
  exact ⟨fun h => ⟨h.fronts, h.total⟩, fun h => ⟨h.1, h.2⟩⟩

theorem Paired.nesting {ts : List Token} (h : Paired ts) (n : Nat) :
    nesting n (terminals ts) = some n := by
  refine (nesting_eq_some_iff n n ts).2 ⟨?_, congrArg (n + ·) h.total⟩
  intro front hfront
  exact Nat.le_trans (h.fronts front hfront) (Nat.le_add_left _ n)

/-- Behind a front of a paired text the depth is what the front leaves open. -/
theorem nesting_front {front ts : List Token} (h : Paired ts) (hfront : front <+: ts) :
    ∃ d, openings front = closings front + d ∧ nesting 0 (terminals front) = some d := by
  obtain ⟨d, hd⟩ := Nat.exists_eq_add_of_le (h.fronts front hfront)
  refine ⟨d, hd, (nesting_eq_some_iff 0 d front).2 ⟨?_, by omega⟩⟩
  intro f hf
  rw [Nat.zero_add]
  exact h.fronts f (hf.trans hfront)

theorem paired_nil : Paired [] := (paired_iff []).2 rfl

theorem paired_plain (t : Token) (hl : t.kind ≠ .lParen) (hr : t.kind ≠ .rParen) : Paired [t] := by
  rw [paired_iff, Balanced, nesting_plain 0 t [] hl hr]
  rfl

theorem Paired.append {ts us : List Token} (hts : Paired ts) (hus : Paired us) :
    Paired (ts ++ us) := by
  rw [paired_iff, Balanced, terminals_append, nesting_append, hts.nesting]
  exact hus.nesting 0

theorem Paired.behind {front ts : List Token} (hfront : Paired front) (h : Paired (front ++ ts)) :
    Paired ts := by
  rw [paired_iff, Balanced, terminals_append, nesting_append, hfront.nesting] at h
  exact (paired_iff ts).2 h

theorem Paired.group {p c : Token} {inside : List Token} (hp : p.kind = .lParen)
    (hin : Paired inside) (hc : c.kind = .rParen) : Paired (p :: (inside ++ [c])) := by
  rw [paired_iff, Balanced, nesting_open 0 p _ hp, terminals_append, nesting_append, hin.nesting]
  exact nesting_close 0 c [] hc

theorem Paired.not_closed {inside rest : List Token} {c : Token} (hin : Paired inside)
    (hc : c.kind = .rParen) : ¬ Paired (inside ++ c :: rest) := by
  intro h
  have hdepth := h.nesting 0
  rw [terminals_append, nesting_append, hin.nesting] at hdepth
  cases (nesting_close_unopened c rest hc).symm.trans hdepth

theorem Paired.not_opened {before inside : List Token} {p : Token} (hin : Paired inside)
    (hp : p.kind = .lParen) : ¬ Paired (before ++ p :: inside) := by
  intro h
  have hfront := h.fronts before (List.prefix_append _ _)
  have htotal := h.total
  have hinside := hin.total
  simp only [openings, closings, List.countP_append, List.countP_cons, hp, decide_true, if_true,
    reduceCtorEq, decide_false, Bool.false_eq_true, if_false] at hfront htotal hinside
  omega

end ScriptConsole
