import ScriptConsole.Expr.Parser
import ScriptConsole.Proofs.Expr.Grammar
import ScriptConsole.Proofs.Success
import ScriptConsole.Proofs.Token.Spelling

namespace ScriptConsole

/-- `p` reads `value` from the front of `ts` and leaves `rest`. -/
def Reads {α : Type} (p : Parser α) (ts : List Token) (value : α) (rest : List Token) : Prop :=
  ∃ h, p ts = .ok ⟨value, rest, h⟩

/-- The same for a parser that may leave everything. -/
def Takes {α : Type} (p : (ts : List Token) → Except ParseError (Taken α ts)) (ts : List Token)
    (value : α) (rest : List Token) : Prop :=
  ∃ h, p ts = .ok ⟨value, rest, h⟩

theorem argumentList_reads (expr : Parser Expr) (ts rest : List Token) (args : List Expr) :
    Reads (argumentList expr) ts args rest ↔
      ∃ arg t mid, Reads expr ts arg (t :: mid) ∧
        (t.kind = .rParen ∧ args = [arg] ∧ rest = mid ∨
          t.kind = .comma ∧
            ∃ more, args = arg :: more ∧ Reads (argumentList expr) mid more rest) := by
  constructor
  · intro h
    obtain ⟨h, he⟩ := h
    rw [argumentList] at he
    split at he
    · cases he
    · cases he
    · next arg t mid hlt hex =>
      refine ⟨arg, t, mid, ⟨hlt, hex⟩, ?_⟩
      split at he
      · next hk =>
        cases he
        exact .inl ⟨hk, rfl, rfl⟩
      · next hk =>
        split at he
        · cases he
        · next more rest' hlt' hmore =>
          cases he
          exact .inr ⟨hk, more, rfl, hlt', hmore⟩
      · cases he
  · intro h
    obtain ⟨arg, t, mid, ⟨hlt, hex⟩, ⟨hk, rfl, rfl⟩ | ⟨hk, more, rfl, hlt', hmore⟩⟩ := h
    · refine ⟨Nat.lt_trans (Nat.lt_succ_self _) hlt, ?_⟩
      rw [argumentList, hex]
      simp only [hk]
    · refine ⟨Nat.lt_trans hlt' (Nat.lt_trans (Nat.lt_succ_self _) hlt), ?_⟩
      rw [argumentList, hex]
      simp only [hk, hmore]

theorem arguments_reads (expr : Parser Expr) (t : Token) (ts rest : List Token)
    (args : List Expr) :
    Reads (arguments expr) (t :: ts) args rest ↔
      t.kind = .rParen ∧ args = [] ∧ rest = ts ∨
        t.kind ≠ .rParen ∧ Reads (argumentList expr) (t :: ts) args rest := by
  by_cases hk : t.kind = .rParen
  · simp only [Reads, arguments, hk, if_true, ne_eq, not_true_eq_false, false_and, or_false,
      true_and]
    constructor
    · intro h
      obtain ⟨_, he⟩ := h
      cases he
      exact ⟨rfl, rfl⟩
    · intro h
      obtain ⟨rfl, rfl⟩ := h
      exact ⟨Nat.lt_succ_self _, rfl⟩
  · simp only [Reads, arguments, hk, if_false, ne_eq, not_false_eq_true, false_and, false_or,
      true_and]

theorem optionalArguments_takes (expr : Parser Expr) (ts rest : List Token)
    (args : Option (List Expr)) :
    Takes (optionalArguments expr) ts args rest ↔
      args = none ∧ rest = ts ∧ (∀ p ∈ ts.head?, p.kind ≠ .lParen) ∨
        ∃ p tail list, ts = p :: tail ∧ p.kind = .lParen ∧ args = some list ∧
          Reads (arguments expr) tail list rest := by
  cases ts with
  | nil =>
    constructor
    · intro h
      obtain ⟨_, he⟩ := h
      cases he
      exact .inl ⟨rfl, rfl, by simp⟩
    · intro h
      obtain ⟨rfl, rfl, _⟩ | ⟨_, _, _, hts, _⟩ := h
      · exact ⟨Nat.le_refl _, rfl⟩
      · cases hts
  | cons p tail =>
    by_cases hk : p.kind = .lParen
    · simp only [Takes, optionalArguments, if_pos hk, map_ok_iff]
      constructor
      · intro h
        obtain ⟨_, r, hr, he⟩ := h
        cases he
        exact .inr ⟨p, tail, r.value, rfl, hk, rfl, r.shorter, hr⟩
      · intro h
        obtain ⟨_, _, hp⟩ | ⟨_, _, list, hts, _, rfl, h, hr⟩ := h
        · exact (hp p rfl hk).elim
        · cases hts
          exact ⟨Nat.le_succ_of_le (Nat.le_of_lt h), _, hr, rfl⟩
    · simp only [Takes, optionalArguments, if_neg hk]
      constructor
      · intro h
        obtain ⟨_, he⟩ := h
        cases he
        exact .inl ⟨rfl, rfl, by simpa using hk⟩
      · intro h
        obtain ⟨rfl, rfl, _⟩ | ⟨_, _, _, hts, hp, _⟩ := h
        · exact ⟨Nat.le_refl _, rfl⟩
        · cases hts
          exact (hk hp).elim

theorem memberLink_reads (expr : Parser Expr) (receiver e : Expr) (ts rest : List Token) :
    Reads (memberLink expr receiver) ts e rest ↔
      ∃ m tail args, ts = m :: tail ∧ m.kind = .ident ∧ e = .member receiver m.text args ∧
        Takes (optionalArguments expr) tail args rest := by
  cases ts with
  | nil =>
    constructor
    · intro h
      obtain ⟨_, he⟩ := h
      cases he
    · intro h
      obtain ⟨_, _, _, hts, _⟩ := h
      cases hts
  | cons m tail =>
    by_cases hk : m.kind = .ident
    · simp only [Reads, memberLink, if_pos hk, map_ok_iff]
      constructor
      · intro h
        obtain ⟨_, r, hr, he⟩ := h
        cases he
        exact ⟨m, tail, r.value, rfl, hk, rfl, r.notLonger, hr⟩
      · intro h
        obtain ⟨_, _, args, hts, _, rfl, h, hr⟩ := h
        cases hts
        exact ⟨Nat.lt_succ_of_le h, _, hr, rfl⟩
    · simp only [Reads, memberLink, if_neg hk]
      constructor
      · intro h
        obtain ⟨_, he⟩ := h
        cases he
      · intro h
        obtain ⟨_, _, _, hts, hm, _⟩ := h
        cases hts
        exact (hk hm).elim

theorem expression_reads (n : Nat) (ts rest : List Token) (e : Expr) :
    Reads (expression (n + 1)) ts e rest ↔
      ∃ first mid, Reads (primary (expression n)) ts first mid ∧
        Takes (memberLinks n first) mid e rest := by
  constructor
  · intro h
    obtain ⟨h, he⟩ := h
    rw [expression] at he
    split at he
    · cases he
    · next first hf =>
      obtain ⟨r, hr, hv⟩ := (map_ok_iff _ _ _).1 he
      cases hv
      exact ⟨first.value, first.rest, ⟨first.shorter, hf⟩, r.notLonger, hr⟩
  · intro h
    obtain ⟨first, mid, ⟨h, hf⟩, h', hr⟩ := h
    refine ⟨Nat.lt_of_le_of_lt h' h, ?_⟩
    rw [expression, hf]
    exact (map_ok_iff _ _ _).2 ⟨_, hr, rfl⟩

theorem memberLinks_stops (n : Nat) (receiver e : Expr) (ts rest : List Token)
    (hd : ∀ d ∈ ts.head?, d.kind ≠ .dot) :
    Takes (memberLinks n receiver) ts e rest ↔ e = receiver ∧ rest = ts := by
  have hstop : memberLinks n receiver ts = .ok ⟨receiver, ts, Nat.le_refl _⟩ := by
    cases ts with
    | nil => cases n <;> rfl
    | cons d ts =>
      have hk : d.kind ≠ .dot := hd d rfl
      cases n <;> rw [memberLinks, if_neg hk]
  constructor
  · intro h
    obtain ⟨_, he⟩ := h
    rw [hstop] at he
    cases he
    exact ⟨rfl, rfl⟩
  · intro h
    obtain ⟨rfl, rfl⟩ := h
    exact ⟨Nat.le_refl _, hstop⟩

theorem memberLinks_takes (n : Nat) (receiver e : Expr) (d : Token) (ts rest : List Token)
    (hd : d.kind = .dot) :
    Takes (memberLinks n receiver) (d :: ts) e rest ↔
      ∃ m, n = m + 1 ∧ ∃ next mid, Reads (memberLink (expression m) receiver) ts next mid ∧
        Takes (memberLinks m next) mid e rest := by
  cases n with
  | zero =>
    constructor
    · intro h
      obtain ⟨_, he⟩ := h
      rw [memberLinks, if_pos hd] at he
      cases he
    · intro h
      obtain ⟨_, hn, _⟩ := h
      cases hn
  | succ n =>
    constructor
    · intro h
      obtain ⟨_, he⟩ := h
      rw [memberLinks, if_pos hd] at he
      split at he
      · cases he
      · next link hl =>
        obtain ⟨r, hr, hv⟩ := (map_ok_iff _ _ _).1 he
        cases hv
        exact ⟨n, rfl, link.value, link.rest, ⟨link.shorter, hl⟩, r.notLonger, hr⟩
    · intro h
      obtain ⟨_, hn, next, mid, ⟨h, hl⟩, h', hr⟩ := h
      cases hn
      refine ⟨Nat.le_succ_of_le (Nat.le_trans h' (Nat.le_of_lt h)), ?_⟩
      rw [memberLinks, if_pos hd, hl]
      exact (map_ok_iff _ _ _).2 ⟨_, hr, rfl⟩

/-- The productions of a primary. -/
inductive PrimaryRead (expr : Parser Expr) : List Token → Expr → List Token → Prop where
  | string {t : Token} {ts : List Token} {text : String} (hk : t.kind = .string)
      (hu : unquote t.text = some text) : PrimaryRead expr (t :: ts) (.literal (.string text)) ts
  | integer {t : Token} {ts : List Token} {n : Int64} (hk : t.kind = .integer)
      (hv : integerValue? t.text = some n) : PrimaryRead expr (t :: ts) (.literal (.integer n)) ts
  | negative {t digits : Token} {ts : List Token} {n : Int64} (hk : t.kind = .operator)
      (ht : t.text = "-") (hd : digits.kind = .integer)
      (hv : integerValue? ("-" ++ digits.text) = some n) :
      PrimaryRead expr (t :: digits :: ts) (.literal (.integer n)) ts
  | word {t : Token} {ts : List Token} {l : Literal} (hk : t.kind = .ident)
      (hw : literalWord? t.text = some l) : PrimaryRead expr (t :: ts) (.literal l) ts
  | named {t : Token} {ts rest : List Token} {args : Option (List Expr)} (hk : t.kind = .ident)
      (hw : literalWord? t.text = none) (ha : Takes (optionalArguments expr) ts args rest) :
      PrimaryRead expr (t :: ts) (.named t.text args) rest
  | parens {t close : Token} {ts rest : List Token} {e : Expr} (hk : t.kind = .lParen)
      (he : Reads expr ts e (close :: rest)) (hc : close.kind = .rParen) :
      PrimaryRead expr (t :: ts) e rest

theorem integerLiteral_ok (source : String) (e : Expr) :
    integerLiteral source = .ok e ↔
      ∃ n, integerValue? source = some n ∧ e = .literal (.integer n) := by
  unfold integerLiteral
  cases integerValue? source with
  | none => simp
  | some n => simp [eq_comm]

theorem primary_reads (expr : Parser Expr) (ts rest : List Token) (e : Expr) :
    Reads (primary expr) ts e rest ↔ PrimaryRead expr ts e rest := by
  constructor
  · intro h
    obtain ⟨h, he⟩ := h
    cases ts with
    | nil => cases he
    | cons t ts =>
      unfold primary at he
      dsimp only at he
      split at he
      · next hk =>
        split at he
        · next text hu =>
          cases he
          exact .string hk hu
        · cases he
      · next hk =>
        obtain ⟨e', hi, hv⟩ := (map_ok_iff _ _ _).1 he
        obtain ⟨n, hn, rfl⟩ := (integerLiteral_ok _ _).1 hi
        cases hv
        exact .integer hk hn
      · next hk =>
        split at he
        · cases he
        · next digits rest' =>
          split at he
          · next hc =>
            obtain ⟨e', hi, hv⟩ := (map_ok_iff _ _ _).1 he
            obtain ⟨n, hn, rfl⟩ := (integerLiteral_ok _ _).1 hi
            cases hv
            exact .negative hk hc.1 hc.2 hn
          · cases he
      · next hk =>
        split at he
        · next l hw =>
          cases he
          exact .word hk hw
        · next hw =>
          obtain ⟨r, hr, hv⟩ := (map_ok_iff _ _ _).1 he
          cases hv
          exact .named hk hw ⟨r.notLonger, hr⟩
      · next hk =>
        split at he
        · cases he
        · cases he
        · next e' close rest' hlt hex =>
          split at he
          · next hc =>
            cases he
            exact .parens hk ⟨hlt, hex⟩ hc
          · cases he
      · cases he
      · cases he
  · intro h
    cases h with
    | string hk hu => exact ⟨Nat.lt_succ_self _, by simp only [primary, hk, hu]⟩
    | integer hk hv =>
      refine ⟨Nat.lt_succ_self _, ?_⟩
      simp only [primary, hk, integerLiteral, hv]
      rfl
    | negative hk ht hd hv =>
      refine ⟨Nat.lt_succ_of_lt (Nat.lt_succ_self _), ?_⟩
      simp only [primary, hk, ht, hd, integerLiteral, hv]
      rfl
    | word hk hw => exact ⟨Nat.lt_succ_self _, by simp only [primary, hk, hw]⟩
    | named hk hw ha =>
      obtain ⟨h, ha⟩ := ha
      refine ⟨Nat.lt_succ_of_le h, ?_⟩
      simp only [primary, hk, hw, ha]
      rfl
    | parens hk he hc =>
      obtain ⟨h, he⟩ := he
      refine ⟨Nat.lt_succ_of_lt (Nat.lt_trans (Nat.lt_succ_self _) h), ?_⟩
      simp only [primary, hk, he, hc, if_true]

/-- The front of `ts` up to `rest` spells `w`. -/
def Spells (w : List Terminal) (ts rest : List Token) : Prop :=
  ∃ used, ts = used ++ rest ∧ used.map Token.terminal = w

theorem spells_nil (ts rest : List Token) : Spells [] ts rest ↔ ts = rest := by
  constructor
  · intro h
    obtain ⟨used, rfl, hused⟩ := h
    rw [List.map_eq_nil_iff.1 hused]
    rfl
  · intro h
    obtain rfl := h
    exact ⟨[], rfl, rfl⟩

theorem spells_cons (a : Terminal) (w : List Terminal) (ts rest : List Token) :
    Spells (a :: w) ts rest ↔ ∃ t tail, ts = t :: tail ∧ t.terminal = a ∧ Spells w tail rest := by
  constructor
  · intro h
    obtain ⟨used, rfl, hused⟩ := h
    obtain ⟨t, used, rfl, ht, hw⟩ := List.map_eq_cons_iff.1 hused
    exact ⟨t, used ++ rest, rfl, ht, used, rfl, hw⟩
  · intro h
    obtain ⟨t, _, rfl, rfl, used, rfl, rfl⟩ := h
    exact ⟨t :: used, rfl, rfl⟩

theorem spells_append (v w : List Terminal) (ts rest : List Token) :
    Spells (v ++ w) ts rest ↔ ∃ mid, Spells v ts mid ∧ Spells w mid rest := by
  constructor
  · intro h
    obtain ⟨used, rfl, hused⟩ := h
    obtain ⟨x, y, rfl, hx, hy⟩ := List.map_eq_append_iff.1 hused
    exact ⟨y ++ rest, ⟨x, List.append_assoc _ _ _, hx⟩, y, rfl, hy⟩
  · intro h
    obtain ⟨_, ⟨x, rfl, rfl⟩, y, rfl, rfl⟩ := h
    exact ⟨x ++ y, (List.append_assoc _ _ _).symm, List.map_append⟩

theorem spells_map (w : List Terminal) (ts rest : List Token) (h : Spells w ts rest) :
    ts.map Token.terminal = w ++ rest.map Token.terminal := by
  obtain ⟨used, rfl, rfl⟩ := h
  exact List.map_append

theorem spells_one (a : Terminal) (ts rest : List Token) :
    Spells [a] ts rest ↔ ∃ t, ts = t :: rest ∧ t.terminal = a := by
  rw [spells_cons]
  constructor
  · intro h
    obtain ⟨t, tail, rfl, ht, hs⟩ := h
    rw [(spells_nil tail rest).1 hs]
    exact ⟨t, rfl, ht⟩
  · intro h
    obtain ⟨t, rfl, ht⟩ := h
    exact ⟨t, rest, rfl, ht, (spells_nil rest rest).2 rfl⟩

theorem reads_shorter {expr : Parser Expr} {ts rest : List Token} {e : Expr}
    (h : Reads expr ts e rest) : rest.length < ts.length := h.1

section Derived
variable (expr : Parser Expr) (d limit : Nat)

/-- Whatever `expr` reads, a tree derives that lies at level `d` and goes no deeper than `limit`. -/
def Derived : Prop :=
  ∀ ts e rest, Reads expr ts e rest →
    ∃ t : ExprTree, Spells t.yield ts rest ∧ t.expr = e ∧ t.deepest d ≤ limit

variable {expr d limit}

theorem argumentList_derived (hexpr : Derived expr d limit) (ts rest : List Token)
    (args : List Expr) (h : Reads (argumentList expr) ts args rest) :
    ∃ t : ArgsTree, Spells (t.yield ++ [.rParen]) ts rest ∧ t.exprs = args ∧
      t.deepest d ≤ limit := by
  -- each further argument is read from fewer tokens
  induction hn : ts.length using Nat.strongRecOn generalizing ts args with
  | ind n ih =>
    obtain ⟨arg, c, mid, harg, hc⟩ := (argumentList_reads expr ts rest args).1 h
    obtain ⟨t, hs, rfl, hdeep⟩ := hexpr ts arg (c :: mid) harg
    rcases hc with ⟨hk, rfl, rfl⟩ | ⟨hk, more, rfl, hmore⟩
    · have hr := (spells_one .rParen _ rest).2 ⟨c, rfl, (terminal_eq_rParen c).2 hk⟩
      exact ⟨.one t, (spells_append _ _ _ _).2 ⟨_, hs, hr⟩, rfl, hdeep⟩
    · have hlt : mid.length < n := by
        have := reads_shorter harg
        rw [List.length_cons] at this
        omega
      obtain ⟨list, hs', rfl, hdeep'⟩ := ih mid.length hlt mid more hmore rfl
      have hr := (spells_cons .comma _ _ rest).2 ⟨c, mid, rfl, (terminal_eq_comma c).2 hk, hs'⟩
      refine ⟨.cons t list, ?_, rfl, Nat.max_le.2 ⟨hdeep, hdeep'⟩⟩
      rw [ArgsTree.yield, List.append_assoc]
      exact (spells_append _ _ _ _).2 ⟨_, hs, hr⟩

theorem optionalArguments_derived (hexpr : Derived expr d limit) (hd : d ≤ limit)
    (ts rest : List Token) (args : Option (List Expr))
    (h : Takes (optionalArguments expr) ts args rest) :
    ∃ t : CallTree, Spells t.yield ts rest ∧ t.exprs = args ∧ t.deepest d ≤ limit := by
  rcases (optionalArguments_takes expr ts rest args).1 h with
    ⟨rfl, rfl, _⟩ | ⟨p, tail, list, rfl, hp, rfl, hr⟩
  · exact ⟨.absent, (spells_nil _ _).2 rfl, rfl, hd⟩
  · cases tail with
    | nil => exact absurd hr.1 (Nat.not_lt_zero _)
    | cons c tail =>
      have opened (w : List Terminal) (hw : Spells w (c :: tail) rest) :
          Spells (.lParen :: w) (p :: c :: tail) rest :=
        (spells_cons _ _ _ _).2 ⟨p, _, rfl, (terminal_eq_lParen p).2 hp, hw⟩
      rcases (arguments_reads expr c tail rest list).1 hr with ⟨hc, rfl, rfl⟩ | ⟨_, hl⟩
      · have hs := (spells_one .rParen _ rest).2 ⟨c, rfl, (terminal_eq_rParen c).2 hc⟩
        exact ⟨.empty, opened _ hs, rfl, hd⟩
      · obtain ⟨t, hs, rfl, hdeep⟩ := argumentList_derived hexpr (c :: tail) rest list hl
        exact ⟨.args t, opened _ hs, rfl, hdeep⟩

theorem primary_derived (hexpr : Derived expr d limit) (hd : d ≤ limit) (ts rest : List Token)
    (e : Expr) (h : Reads (primary expr) ts e rest) :
    ∃ t : PrimaryTree, Spells t.yield ts rest ∧ t.expr = e ∧ t.deepest d ≤ limit := by
  cases (primary_reads expr ts rest e).1 h with
  | @string t _ text hk hu =>
    have ht := (terminal_eq_string t t.text).2 ⟨hk, rfl⟩
    exact ⟨.string t.text text hu, (spells_one _ _ _).2 ⟨t, rfl, ht⟩, rfl, hd⟩
  | @integer t _ n hk hv =>
    have ht := (terminal_eq_integer t t.text).2 ⟨hk, rfl⟩
    exact ⟨.integer t.text n hv, (spells_one _ _ _).2 ⟨t, rfl, ht⟩, rfl, hd⟩
  | @negative t digits _ n hk ht hk' hv =>
    have hm := (terminal_eq_minus t).2 ⟨hk, ht⟩
    have hs := (spells_one _ _ rest).2 ⟨digits, rfl, (terminal_eq_integer digits _).2 ⟨hk', rfl⟩⟩
    exact ⟨.negative digits.text n hv, (spells_cons _ _ _ _).2 ⟨t, _, rfl, hm, hs⟩, rfl, hd⟩
  | @word t _ l hk hw =>
    have ht := (terminal_eq_ident t t.text).2 ⟨hk, rfl⟩
    exact ⟨.word t.text l hw, (spells_one _ _ _).2 ⟨t, rfl, ht⟩, rfl, hd⟩
  | @named t ts _ args hk hw ha =>
    have ht := (terminal_eq_ident t t.text).2 ⟨hk, rfl⟩
    obtain ⟨call, hs, rfl, hdeep⟩ := optionalArguments_derived hexpr hd ts rest args ha
    exact ⟨.named t.text hw call, (spells_cons _ _ _ _).2 ⟨t, ts, rfl, ht, hs⟩, rfl, hdeep⟩
  | @parens t close ts _ _ hk he hc =>
    have ht := (terminal_eq_lParen t).2 hk
    have hr := (spells_one .rParen _ rest).2 ⟨close, rfl, (terminal_eq_rParen close).2 hc⟩
    obtain ⟨inner, hs, rfl, hdeep⟩ := hexpr ts e (close :: rest) he
    have hin := (spells_append _ _ _ _).2 ⟨_, hs, hr⟩
    exact ⟨.parens inner, (spells_cons _ _ _ _).2 ⟨t, ts, rfl, ht, hin⟩, rfl, hdeep⟩

end Derived

/-- With `n` levels left, the receiver lies at level `limit - n`. -/
theorem memberLinks_derived (limit n : Nat) (hn : n ≤ limit)
    (hexpr : ∀ m, m < n → Derived (expression m) (limit - m) limit) (receiver e : Expr)
    (ts rest : List Token) (h : Takes (memberLinks n receiver) ts e rest) :
    ∃ t : LinksTree, Spells t.yield ts rest ∧ t.onto receiver = e ∧
      t.deepest (limit - n) ≤ limit := by
  induction n generalizing receiver ts with
  | zero =>
    have hd : ∀ d ∈ ts.head?, d.kind ≠ .dot := by
      intro d hd hk
      cases ts with
      | nil => cases hd
      | cons c ts =>
        cases hd
        obtain ⟨_, hm, _⟩ := (memberLinks_takes 0 receiver e d ts rest hk).1 h
        cases hm
    obtain ⟨rfl, rfl⟩ := (memberLinks_stops 0 receiver e ts rest hd).1 h
    exact ⟨.nil, (spells_nil _ _).2 rfl, rfl, Nat.sub_le _ _⟩
  | succ n ih =>
    by_cases hd : ∀ d ∈ ts.head?, d.kind ≠ .dot
    · obtain ⟨rfl, rfl⟩ := (memberLinks_stops (n + 1) receiver e ts rest hd).1 h
      exact ⟨.nil, (spells_nil _ _).2 rfl, rfl, Nat.sub_le _ _⟩
    · cases ts with
      | nil => simp at hd
      | cons d ts =>
        have hk : d.kind = .dot := by simpa using hd
        obtain ⟨m, hm, next, mid, hlink, hrest⟩ :=
          (memberLinks_takes (n + 1) receiver e d ts rest hk).1 h
        cases hm
        obtain ⟨name, tail, args, rfl, hname, rfl, hargs⟩ :=
          (memberLink_reads (expression n) receiver next ts mid).1 hlink
        obtain ⟨call, hs, rfl, hdeep⟩ := optionalArguments_derived (hexpr n (Nat.lt_succ_self n))
          (Nat.sub_le _ _) tail mid args hargs
        obtain ⟨links, hs', rfl, hdeep'⟩ := ih (Nat.le_of_succ_le hn)
          (fun m hm => hexpr m (Nat.lt_succ_of_lt hm)) _ mid hrest
        refine ⟨.cons name.text call links, ?_, rfl, ?_⟩
        · have hn := (terminal_eq_ident name name.text).2 ⟨hname, rfl⟩
          have hw := (spells_cons _ _ _ _).2
            ⟨name, tail, rfl, hn, (spells_append _ _ _ _).2 ⟨mid, hs, hs'⟩⟩
          exact (spells_cons _ _ _ _).2 ⟨d, _, rfl, (terminal_eq_dot d).2 hk, hw⟩
        · have hlevel : limit - (n + 1) + 1 = limit - n := by omega
          rw [LinksTree.deepest, hlevel]
          exact Nat.max_le.2 ⟨hdeep, hdeep'⟩

theorem expression_derived (limit n : Nat) (hn : n ≤ limit) :
    Derived (expression n) (limit - n) limit := by
  induction n using Nat.strongRecOn with
  | ind n ih =>
    intro ts e rest h
    cases n with
    | zero =>
      obtain ⟨_, he⟩ := h
      cases he
    | succ n =>
      have hle : n ≤ limit := Nat.le_of_succ_le hn
      obtain ⟨first, mid, hfirst, hlinks⟩ := (expression_reads n ts rest e).1 h
      obtain ⟨t, hs, rfl, hdeep⟩ := primary_derived (ih n (Nat.lt_succ_self n) hle)
        (Nat.sub_le _ _) ts mid first hfirst
      obtain ⟨links, hs', rfl, hdeep'⟩ := memberLinks_derived limit n hle
        (fun m hm => ih m (Nat.lt_succ_of_lt hm) (by omega)) _ _ mid rest hlinks
      refine ⟨.mk t links, (spells_append _ _ _ _).2 ⟨mid, hs, hs'⟩, rfl, ?_⟩
      have hlevel : limit - (n + 1) + 1 = limit - n := by omega
      rw [ExprTree.deepest, hlevel]
      exact Nat.max_le.2 ⟨hdeep, hdeep'⟩

theorem LinksTree.le_deepest (d : Nat) (t : LinksTree) : d ≤ t.deepest d := by
  cases t with
  | nil => exact Nat.le_refl d
  | cons member call links =>
    have h := links.le_deepest (d + 1)
    rw [LinksTree.deepest]
    omega
termination_by structural t

theorem noCall_tokens (ts : List Token) :
    NoCall (ts.map Token.terminal) ↔ ∀ p ∈ ts.head?, p.kind ≠ .lParen := by
  cases ts with
  | nil => simp [NoCall]
  | cons p ts => simp [NoCall, terminal_eq_lParen]

theorem stops_tokens (ts : List Token) (h : Stops (ts.map Token.terminal)) :
    ∀ d ∈ ts.head?, d.kind ≠ .dot := by
  cases ts with
  | nil => simp
  | cons d ts => simpa [Stops, terminal_eq_dot] using h.2

section Accepted
variable (expr : Parser Expr) (d limit : Nat)

/-- Whatever a tree derives that lies at level `d` and goes no deeper than `limit`, `expr` reads. -/
def Accepted : Prop :=
  ∀ (t : ExprTree) ts rest, t.deepest d ≤ limit → Spells t.yield ts rest →
    Stops (rest.map Token.terminal) → Reads expr ts t.expr rest

variable {expr d limit}

theorem argumentList_accepted (hexpr : Accepted expr d limit) (t : ArgsTree)
    (ts rest : List Token) (hdeep : t.deepest d ≤ limit)
    (h : Spells (t.yield ++ [.rParen]) ts rest) :
    Reads (argumentList expr) ts t.exprs rest := by
  cases t with
  | one arg =>
    obtain ⟨_, hs, hr⟩ := (spells_append _ _ _ _).1 h
    obtain ⟨c, rfl, hc⟩ := (spells_one _ _ _).1 hr
    have harg := hexpr arg ts (c :: rest) hdeep hs (by rw [List.map_cons, hc]; exact stops_rParen _)
    exact (argumentList_reads _ _ _ _).2
      ⟨arg.expr, c, rest, harg, .inl ⟨(terminal_eq_rParen c).1 hc, rfl, rfl⟩⟩
  | cons arg list =>
    obtain ⟨hd₁, hd₂⟩ := Nat.max_le.1 hdeep
    rw [ArgsTree.yield, List.append_assoc] at h
    obtain ⟨_, hs, hr⟩ := (spells_append _ _ _ _).1 h
    obtain ⟨c, mid, rfl, hc, hl⟩ := (spells_cons _ _ _ _).1 hr
    have harg := hexpr arg ts (c :: mid) hd₁ hs (by rw [List.map_cons, hc]; exact stops_comma _)
    have hlist := argumentList_accepted hexpr list mid rest hd₂ hl
    exact (argumentList_reads _ _ _ _).2
      ⟨arg.expr, c, mid, harg, .inr ⟨(terminal_eq_comma c).1 hc, list.exprs, rfl, hlist⟩⟩
termination_by structural t

theorem optionalArguments_accepted (hexpr : Accepted expr d limit) (t : CallTree)
    (ts rest : List Token) (hdeep : t.deepest d ≤ limit) (h : Spells t.yield ts rest)
    (hrest : NoCall (rest.map Token.terminal)) :
    Takes (optionalArguments expr) ts t.exprs rest := by
  refine (optionalArguments_takes _ _ _ _).2 ?_
  cases t with
  | absent =>
    obtain rfl := (spells_nil _ _).1 h
    exact .inl ⟨rfl, rfl, (noCall_tokens ts).1 hrest⟩
  | empty =>
    obtain ⟨p, _, rfl, hp, hr⟩ := (spells_cons _ _ _ _).1 h
    obtain ⟨c, rfl, hc⟩ := (spells_one _ _ _).1 hr
    have hnone := (arguments_reads expr c rest rest []).2
      (.inl ⟨(terminal_eq_rParen c).1 hc, rfl, rfl⟩)
    exact .inr ⟨p, c :: rest, [], rfl, (terminal_eq_lParen p).1 hp, rfl, hnone⟩
  | args list =>
    obtain ⟨p, tail, rfl, hp, hl⟩ := (spells_cons _ _ _ _).1 h
    have hread := argumentList_accepted hexpr list tail rest hdeep hl
    obtain ⟨a, w, hw, ha⟩ := list.yield_begins
    rw [hw] at hl
    obtain ⟨c, tail, rfl, rfl, _⟩ := (spells_cons _ _ _ _).1 hl
    have hargs := (arguments_reads expr c tail rest list.exprs).2
      (.inr ⟨fun hc => ha ((terminal_eq_rParen c).2 hc), hread⟩)
    exact .inr ⟨p, c :: tail, list.exprs, rfl, (terminal_eq_lParen p).1 hp, rfl, hargs⟩

theorem primary_accepted (hexpr : Accepted expr d limit) (t : PrimaryTree) (ts rest : List Token)
    (hdeep : t.deepest d ≤ limit) (h : Spells t.yield ts rest)
    (hrest : NoCall (rest.map Token.terminal)) : Reads (primary expr) ts t.expr rest := by
  refine (primary_reads _ _ _ _).2 ?_
  cases t with
  | string source text hu =>
    obtain ⟨t, rfl, ht⟩ := (spells_one _ _ _).1 h
    obtain ⟨hk, rfl⟩ := (terminal_eq_string t source).1 ht
    exact .string hk hu
  | integer digits n hv =>
    obtain ⟨t, rfl, ht⟩ := (spells_one _ _ _).1 h
    obtain ⟨hk, rfl⟩ := (terminal_eq_integer t digits).1 ht
    exact .integer hk hv
  | negative digits n hv =>
    obtain ⟨m, _, rfl, hm, hr⟩ := (spells_cons _ _ _ _).1 h
    obtain ⟨t, rfl, ht⟩ := (spells_one _ _ _).1 hr
    obtain ⟨hk, htext⟩ := (terminal_eq_minus m).1 hm
    obtain ⟨hk', rfl⟩ := (terminal_eq_integer t digits).1 ht
    exact .negative hk htext hk' hv
  | word text l hw =>
    obtain ⟨t, rfl, ht⟩ := (spells_one _ _ _).1 h
    obtain ⟨hk, rfl⟩ := (terminal_eq_ident t text).1 ht
    exact .word hk hw
  | named text hw call =>
    obtain ⟨t, tail, rfl, ht, hc⟩ := (spells_cons _ _ _ _).1 h
    obtain ⟨hk, rfl⟩ := (terminal_eq_ident t text).1 ht
    exact .named hk hw (optionalArguments_accepted hexpr call tail rest hdeep hc hrest)
  | parens inner =>
    obtain ⟨p, tail, rfl, hp, hin⟩ := (spells_cons _ _ _ _).1 h
    obtain ⟨_, hs, hr⟩ := (spells_append _ _ _ _).1 hin
    obtain ⟨c, rfl, hc⟩ := (spells_one _ _ _).1 hr
    have hstop : Stops ((c :: rest).map Token.terminal) := by
      rw [List.map_cons, hc]
      exact stops_rParen _
    have he := hexpr inner tail (c :: rest) hdeep hs hstop
    exact .parens ((terminal_eq_lParen p).1 hp) he ((terminal_eq_rParen c).1 hc)

end Accepted

theorem memberLinks_accepted (limit n : Nat) (hn : n ≤ limit)
    (hexpr : ∀ m, m < n → Accepted (expression m) (limit - m) limit) (t : LinksTree)
    (receiver : Expr) (ts rest : List Token) (hdeep : t.deepest (limit - n) ≤ limit)
    (h : Spells t.yield ts rest) (hrest : Stops (rest.map Token.terminal)) :
    Takes (memberLinks n receiver) ts (t.onto receiver) rest := by
  cases t with
  | nil =>
    obtain rfl := (spells_nil _ _).1 h
    exact (memberLinks_stops n receiver receiver ts ts (stops_tokens ts hrest)).2 ⟨rfl, rfl⟩
  | cons member call links =>
    obtain ⟨hd₁, hd₂⟩ := Nat.max_le.1 hdeep
    obtain ⟨m, rfl⟩ : ∃ m, n = m + 1 := by
      have := links.le_deepest (limit - n + 1)
      exact ⟨n - 1, by omega⟩
    have hlevel : limit - (m + 1) + 1 = limit - m := by omega
    rw [hlevel] at hd₁ hd₂
    obtain ⟨d, _, rfl, hd, hw⟩ := (spells_cons _ _ _ _).1 h
    obtain ⟨name, _, rfl, hname, hw⟩ := (spells_cons _ _ _ _).1 hw
    obtain ⟨mid, hc, hl⟩ := (spells_append _ _ _ _).1 hw
    obtain ⟨hk, rfl⟩ := (terminal_eq_ident name member).1 hname
    have hmid : NoCall (mid.map Token.terminal) := by
      rw [spells_map _ _ _ hl]
      exact noCall_links links _ hrest.1
    have hargs := optionalArguments_accepted (hexpr m (Nat.lt_succ_self m)) call _ mid hd₁ hc hmid
    have hlink := (memberLink_reads (expression m) receiver _ _ mid).2
      ⟨name, _, call.exprs, rfl, hk, rfl, hargs⟩
    have hlinks := memberLinks_accepted limit m (Nat.le_of_succ_le hn)
      (fun k hk => hexpr k (Nat.lt_succ_of_lt hk)) links (.member receiver name.text call.exprs)
      mid rest hd₂ hl hrest
    exact (memberLinks_takes _ _ _ d _ _ ((terminal_eq_dot d).1 hd)).2
      ⟨m, rfl, _, mid, hlink, hlinks⟩
termination_by structural t

theorem expression_accepted (limit n : Nat) (hn : n ≤ limit) :
    Accepted (expression n) (limit - n) limit := by
  induction n using Nat.strongRecOn with
  | ind n ih =>
    intro t ts rest hdeep h hrest
    obtain ⟨first, links⟩ := t
    obtain ⟨hd₁, hd₂⟩ := Nat.max_le.1 hdeep
    obtain ⟨m, rfl⟩ : ∃ m, n = m + 1 := by
      have := links.le_deepest (limit - n + 1)
      exact ⟨n - 1, by omega⟩
    have hle : m ≤ limit := Nat.le_of_succ_le hn
    have hlevel : limit - (m + 1) + 1 = limit - m := by omega
    rw [hlevel] at hd₁ hd₂
    obtain ⟨mid, hf, hl⟩ := (spells_append _ _ _ _).1 h
    have hmid : NoCall (mid.map Token.terminal) := by
      rw [spells_map _ _ _ hl]
      exact noCall_links links _ hrest.1
    have hfirst := primary_accepted (ih m (Nat.lt_succ_self m) hle) first ts mid hd₁ hf hmid
    have hlinks := memberLinks_accepted limit m hle
      (fun k hk => ih k (Nat.lt_succ_of_lt hk) (by omega)) links first.expr mid rest hd₂ hl hrest
    exact (expression_reads m ts rest _).2 ⟨first.expr, mid, hfirst, hlinks⟩

theorem parseExpression_ok (source : String) (e : Expr) :
    parseExpression source = .ok e ↔
      Reads (expression maxDepth) (significantTokens source) e [] := by
  unfold parseExpression
  rw [bind_ok_iff]
  constructor
  · intro h
    obtain ⟨⟨v, rest, h⟩, he, hend⟩ := h
    cases rest with
    | nil =>
      cases hend
      exact ⟨h, he⟩
    | cons t ts => cases hend
  · intro h
    obtain ⟨h, he⟩ := h
    exact ⟨_, he, rfl⟩

theorem parseExpression_iff (source : String) (e : Expr) :
    parseExpression source = .ok e ↔
      ∃ t : ExprTree, (significantTokens source).map Token.terminal = t.yield ∧ t.expr = e ∧
        t.deepest 0 ≤ maxDepth := by
  rw [parseExpression_ok]
  constructor
  · intro h
    obtain ⟨t, hs, he, hdeep⟩ := expression_derived maxDepth maxDepth (Nat.le_refl _) _ e [] h
    rw [Nat.sub_self] at hdeep
    refine ⟨t, ?_, he, hdeep⟩
    simpa using spells_map _ _ _ hs
  · intro h
    obtain ⟨t, hs, rfl, hdeep⟩ := h
    refine expression_accepted maxDepth maxDepth (Nat.le_refl _) t _ [] ?_ ?_ ?_
    · rw [Nat.sub_self]
      exact hdeep
    · exact ⟨significantTokens source, (List.append_nil _).symm, hs⟩
    · exact ⟨by simp [NoCall], by simp⟩

/-- What may stand behind the expression of a statement. -/
inductive StatementEnd : List Token → Prop where
  | nothing : StatementEnd []
  | semicolon (t : Token) (h : t.kind = .semicolon) : StatementEnd [t]

section Statements
variable (t : ExprTree) (hdeep : t.deepest 0 ≤ maxDepth) (ts ending : List Token)
variable (hts : ts.map Token.terminal = t.yield) (hending : StatementEnd ending)
include hdeep hts hending

theorem closingExpression_of_yield : closingExpression (ts ++ ending) = .ok t.expr := by
  have hdeep' : t.deepest (maxDepth - maxDepth) ≤ maxDepth := by rwa [Nat.sub_self]
  have hspells : Spells t.yield (ts ++ ending) ending := ⟨ts, rfl, hts⟩
  have hstops : Stops (ending.map Token.terminal) := by
    cases hending with
    | nothing => exact ⟨by simp [NoCall], by simp⟩
    | semicolon c hc => simp [Stops, NoCall, Token.terminal, hc]
  obtain ⟨_, hread⟩ :=
    expression_accepted maxDepth maxDepth (Nat.le_refl _) t _ ending hdeep' hspells hstops
  rw [closingExpression, hread]
  cases hending with
  | nothing => rfl
  | semicolon c hc =>
    change (if c.kind = .semicolon then atEnd t.expr [] else _) = _
    rw [if_pos hc]
    rfl

/-- Every expression is a statement: no sign of assignment is its second token. -/
theorem parseStatement_of_yield (source : String)
    (htokens : significantTokens source = ts ++ ending) : parseStatement source = .ok (.expr t.expr) := by
  have hclosed := closingExpression_of_yield t hdeep ts ending hts hending
  rw [← htokens] at hclosed
  unfold parseStatement
  split
  · next target sign rest hcut =>
    rw [hcut] at hclosed htokens
    have hassign : ¬ (target.kind = .ident ∧ sign.kind = .assign) := by
      rintro ⟨htarget, hsign⟩
      obtain ⟨a, w, hyield, _⟩ := t.yield_begins
      rw [hyield] at hts
      obtain ⟨c, behind, rfl, _, _⟩ := List.map_eq_cons_iff.1 hts
      obtain ⟨rfl, hbehind⟩ := List.cons.inj htokens
      cases behind with
      | nil =>
        cases hending with
        | nothing => cases hbehind
        | semicolon c hc =>
          obtain ⟨rfl, _⟩ := List.cons.inj hbehind
          cases hsign.symm.trans hc
      | cons c behind =>
        obtain ⟨rfl, _⟩ := List.cons.inj hbehind
        rw [← hyield, List.map_cons, List.map_cons,
          (terminal_eq_ident target target.text).2 ⟨htarget, rfl⟩] at hts
        rcases yield_behind_name t _ _ _ hts.symm with hdot | hparen
        · cases hsign.symm.trans ((terminal_eq_dot sign).1 hdot)
        · cases hsign.symm.trans ((terminal_eq_lParen sign).1 hparen)
    rw [if_neg hassign, hclosed]
    rfl
  · rw [hclosed]
    rfl

theorem parseStatement_assign_of_yield (source : String) (target sign : Token)
    (htarget : target.kind = .ident) (hsign : sign.kind = .assign)
    (htokens : significantTokens source = target :: sign :: (ts ++ ending)) :
    parseStatement source = .ok (.assign target.text t.expr) := by
  rw [parseStatement, htokens]
  dsimp only
  rw [if_pos ⟨htarget, hsign⟩, closingExpression_of_yield t hdeep ts ending hts hending]
  rfl

end Statements

theorem parseStatement_of_expression (source : String) (e : Expr)
    (h : parseExpression source = .ok e) : parseStatement source = .ok (.expr e) := by
  obtain ⟨t, hts, rfl, hdeep⟩ := (parseExpression_iff source e).1 h
  exact parseStatement_of_yield t hdeep _ [] hts .nothing source (List.append_nil _).symm

/-- The parser accepts a text as `e` exactly when its tokens have a derivation for `e` that goes no
deeper than the limit.  No tokens have two derivations, and every string has the value that its
derivation asks for. -/
theorem parseExpression_ok_iff_derivation (source : String) :
    (∀ e : Expr, parseExpression source = .ok e ↔
      ∃ t : ExprTree, t.yield = (significantTokens source).map Token.terminal ∧ t.expr = e ∧
        t.deepest 0 ≤ 128) ∧
    (∀ t u : ExprTree, t.yield = (significantTokens source).map Token.terminal →
      u.yield = (significantTokens source).map Token.terminal → t = u) ∧
    (∀ t ∈ significantTokens source, t.kind = .string → ∃ text, unquote t.text = some text) := by
  refine ⟨?_, ?_, ?_⟩
  · intro e
    rw [parseExpression_iff]
    constructor
    · intro h
      obtain ⟨t, hy, he, hdeep⟩ := h
      exact ⟨t, hy.symm, he, hdeep⟩
    · intro h
      obtain ⟨t, hy, he, hdeep⟩ := h
      exact ⟨t, hy.symm, he, hdeep⟩
  · intro t u ht hu
    have hend : Stops [] := ⟨by simp [NoCall], by simp⟩
    exact (t.yield_unique u [] [] (by rw [ht, hu]) hend hend).1
  · intro t ht hk
    exact unquote_string source t (List.mem_filter.1 ht).1 hk

end ScriptConsole
