import ScriptConsole.Expr.Basic
import ScriptConsole.Expr.Literal
import ScriptConsole.Token.Basic

namespace ScriptConsole

/-- The terminals of the grammar.  Where a token stands does not matter. -/
inductive Terminal where
  | string (source : String)
  | integer (digits : String)
  | ident (name : String)
  | minus
  | dot
  | comma
  | lParen
  | rParen
  /-- A token that no expression contains. -/
  | foreign
  deriving DecidableEq, Repr

def Token.terminal (t : Token) : Terminal :=
  match t.kind with
  | .string => .string t.text
  | .integer => .integer t.text
  | .ident => .ident t.text
  | .operator => if t.text = "-" then .minus else .foreign
  | .dot => .dot
  | .comma => .comma
  | .lParen => .lParen
  | .rParen => .rParen
  | _ => .foreign

section Terminals
variable (t : Token) (text : String)

theorem terminal_eq_string : t.terminal = .string text ↔ t.kind = .string ∧ t.text = text := by
  grind [Token.terminal]

theorem terminal_eq_integer : t.terminal = .integer text ↔ t.kind = .integer ∧ t.text = text := by
  grind [Token.terminal]

theorem terminal_eq_ident : t.terminal = .ident text ↔ t.kind = .ident ∧ t.text = text := by
  grind [Token.terminal]

theorem terminal_eq_minus : t.terminal = .minus ↔ t.kind = .operator ∧ t.text = "-" := by
  grind [Token.terminal]

theorem terminal_eq_dot : t.terminal = .dot ↔ t.kind = .dot := by
  grind [Token.terminal]

theorem terminal_eq_comma : t.terminal = .comma ↔ t.kind = .comma := by
  grind [Token.terminal]

theorem terminal_eq_lParen : t.terminal = .lParen ↔ t.kind = .lParen := by
  grind [Token.terminal]

theorem terminal_eq_rParen : t.terminal = .rParen ↔ t.kind = .rParen := by
  grind [Token.terminal]

end Terminals

mutual

/-- `expr := primary ( '.' IDENT call_args? )*` -/
inductive ExprTree where
  | mk (first : PrimaryTree) (links : LinksTree)

/-- `primary := STRING | '-'? INTEGER | true | false | null | IDENT call_args? | '(' expr ')'` -/
inductive PrimaryTree where
  | string (source text : String) (decodes : unquote source = some text)
  | integer (digits : String) (value : Int64) (fits : integerValue? digits = some value)
  | negative (digits : String) (value : Int64) (fits : integerValue? ("-" ++ digits) = some value)
  | word (text : String) (value : Literal) (isWord : literalWord? text = some value)
  | named (text : String) (noWord : literalWord? text = none) (call : CallTree)
  | parens (inner : ExprTree)

/-- `( '.' IDENT call_args? )*` -/
inductive LinksTree where
  | nil
  | cons (member : String) (call : CallTree) (links : LinksTree)

/-- `call_args?`, with `call_args := '(' ( expr ( ',' expr )* )? ')'` -/
inductive CallTree where
  | absent
  | empty
  | args (list : ArgsTree)

/-- `expr ( ',' expr )*` -/
inductive ArgsTree where
  | one (arg : ExprTree)
  | cons (arg : ExprTree) (list : ArgsTree)

end

mutual

/-- The terminals that a tree derives. -/
def ExprTree.yield : ExprTree → List Terminal
  | .mk first links => first.yield ++ links.yield

def PrimaryTree.yield : PrimaryTree → List Terminal
  | .string source _ _ => [.string source]
  | .integer digits _ _ => [.integer digits]
  | .negative digits _ _ => [.minus, .integer digits]
  | .word text _ _ => [.ident text]
  | .named text _ call => .ident text :: call.yield
  | .parens inner => .lParen :: (inner.yield ++ [.rParen])

def LinksTree.yield : LinksTree → List Terminal
  | .nil => []
  | .cons member call links => .dot :: .ident member :: (call.yield ++ links.yield)

def CallTree.yield : CallTree → List Terminal
  | .absent => []
  | .empty => [.lParen, .rParen]
  | .args list => .lParen :: (list.yield ++ [.rParen])

def ArgsTree.yield : ArgsTree → List Terminal
  | .one arg => arg.yield
  | .cons arg list => arg.yield ++ .comma :: list.yield

end

mutual

/-- The expression that a tree stands for. -/
def ExprTree.expr : ExprTree → Expr
  | .mk first links => links.onto first.expr

def PrimaryTree.expr : PrimaryTree → Expr
  | .string _ text _ => .literal (.string text)
  | .integer _ value _ | .negative _ value _ => .literal (.integer value)
  | .word _ value _ => .literal value
  | .named text _ call => .named text call.exprs
  | .parens inner => inner.expr

/-- The expression of links behind a receiver. -/
def LinksTree.onto : LinksTree → Expr → Expr
  | .nil, receiver => receiver
  | .cons member call links, receiver => links.onto (.member receiver member call.exprs)

def CallTree.exprs : CallTree → Option (List Expr)
  | .absent => none
  | .empty => some []
  | .args list => some list.exprs

def ArgsTree.exprs : ArgsTree → List Expr
  | .one arg => [arg.expr]
  | .cons arg list => arg.expr :: list.exprs

end

mutual

/-- The deepest level in a tree for an expression at level `d`.  Its primary lies at level `d + 1`
and its `j`-th link at level `d + 1 + j`; an expression in parentheses and the arguments of a call
lie at the level of the primary or link they belong to. -/
def ExprTree.deepest (d : Nat) : ExprTree → Nat
  | .mk first links => max (first.deepest (d + 1)) (links.deepest (d + 1))

def PrimaryTree.deepest (d : Nat) : PrimaryTree → Nat
  | .named _ _ call => call.deepest d
  | .parens inner => inner.deepest d
  | _ => d

/-- The links behind a primary or link at level `d`. -/
def LinksTree.deepest (d : Nat) : LinksTree → Nat
  | .nil => d
  | .cons _ call links => max (call.deepest (d + 1)) (links.deepest (d + 1))

def CallTree.deepest (d : Nat) : CallTree → Nat
  | .args list => list.deepest d
  | _ => d

def ArgsTree.deepest (d : Nat) : ArgsTree → Nat
  | .one arg => arg.deepest d
  | .cons arg list => max (arg.deepest d) (list.deepest d)

end

mutual

theorem ExprTree.foreign_not_mem (t : ExprTree) : .foreign ∉ t.yield := by
  cases t with
  | mk first links =>
    simp [ExprTree.yield, first.foreign_not_mem, links.foreign_not_mem]
termination_by structural t

theorem PrimaryTree.foreign_not_mem (t : PrimaryTree) : .foreign ∉ t.yield := by
  cases t with
  | named text _ call => simp [PrimaryTree.yield, call.foreign_not_mem]
  | parens inner => simp [PrimaryTree.yield, inner.foreign_not_mem]
  | string | integer | negative | word => simp [PrimaryTree.yield]
termination_by structural t

theorem LinksTree.foreign_not_mem (t : LinksTree) : .foreign ∉ t.yield := by
  cases t with
  | nil => simp [LinksTree.yield]
  | cons member call links =>
    simp [LinksTree.yield, call.foreign_not_mem, links.foreign_not_mem]
termination_by structural t

theorem CallTree.foreign_not_mem (t : CallTree) : .foreign ∉ t.yield := by
  cases t with
  | args list => simp [CallTree.yield, list.foreign_not_mem]
  | absent | empty => simp [CallTree.yield]
termination_by structural t

theorem ArgsTree.foreign_not_mem (t : ArgsTree) : .foreign ∉ t.yield := by
  cases t with
  | one arg => exact arg.foreign_not_mem
  | cons arg list => simp [ArgsTree.yield, arg.foreign_not_mem, list.foreign_not_mem]
termination_by structural t

end

/-- No primary begins with a closing parenthesis. -/
theorem PrimaryTree.yield_begins (t : PrimaryTree) : ∃ a w, t.yield = a :: w ∧ a ≠ .rParen := by
  cases t <;> simp [PrimaryTree.yield]

theorem ExprTree.yield_begins (t : ExprTree) : ∃ a w, t.yield = a :: w ∧ a ≠ .rParen := by
  obtain ⟨first, links⟩ := t
  obtain ⟨a, w, hw, ha⟩ := first.yield_begins
  exact ⟨a, w ++ links.yield, by rw [ExprTree.yield, hw]; rfl, ha⟩

theorem ArgsTree.yield_begins (t : ArgsTree) : ∃ a w, t.yield = a :: w ∧ a ≠ .rParen := by
  cases t with
  | one arg => exact arg.yield_begins
  | cons arg list =>
    obtain ⟨a, w, hw, ha⟩ := arg.yield_begins
    exact ⟨a, w ++ .comma :: list.yield, by rw [ArgsTree.yield, hw]; rfl, ha⟩

/-- A call could not go on with these terminals. -/
def NoCall (rest : List Terminal) : Prop := rest.head? ≠ some .lParen

/-- An expression could not go on with these terminals. -/
def Stops (rest : List Terminal) : Prop := NoCall rest ∧ rest.head? ≠ some .dot

theorem noCall_links (links : LinksTree) (rest : List Terminal) (h : NoCall rest) :
    NoCall (links.yield ++ rest) := by
  cases links with
  | nil => exact h
  | cons member call links => simp [LinksTree.yield, NoCall]

/-- Behind the name at the front of an expression stands a dot or an argument list. -/
theorem yield_behind_name (t : ExprTree) (name : String) (a : Terminal) (w : List Terminal)
    (h : t.yield = .ident name :: a :: w) : a = .dot ∨ a = .lParen := by
  obtain ⟨first, links⟩ := t
  have hlinks : links.yield = a :: w → a = .dot := by
    intro ha
    cases links with
    | nil => cases ha
    | cons => exact (List.cons.inj ha).1.symm
  cases first with
  | string | integer | negative | parens => cases h
  | word => exact .inl (hlinks (List.cons.inj h).2)
  | named text _ call =>
    have hrest := (List.cons.inj h).2
    cases call with
    | absent => exact .inl (hlinks hrest)
    | empty | args => exact .inr (List.cons.inj hrest).1.symm

theorem stops_comma (rest : List Terminal) : Stops (.comma :: rest) := by simp [Stops, NoCall]

theorem stops_rParen (rest : List Terminal) : Stops (.rParen :: rest) := by simp [Stops, NoCall]

mutual

theorem ExprTree.yield_unique (t u : ExprTree) (x y : List Terminal)
    (h : t.yield ++ x = u.yield ++ y) (hx : Stops x) (hy : Stops y) : t = u ∧ x = y := by
  cases t with
  | mk first links =>
    cases u with
    | mk first' links' =>
      simp only [ExprTree.yield, List.append_assoc] at h
      obtain ⟨rfl, hl⟩ := first.yield_unique first' _ _ h (noCall_links links x hx.1)
        (noCall_links links' y hy.1)
      obtain ⟨rfl, rfl⟩ := links.yield_unique links' x y hl hx hy
      exact ⟨rfl, rfl⟩
termination_by structural t

theorem PrimaryTree.yield_unique (t u : PrimaryTree) (x y : List Terminal)
    (h : t.yield ++ x = u.yield ++ y) (hx : NoCall x) (hy : NoCall y) : t = u ∧ x = y := by
  cases t with
  | string source text ht =>
    cases u with
    | string source' text' hu =>
      obtain ⟨rfl, rfl⟩ : source = source' ∧ x = y := by simpa [PrimaryTree.yield] using h
      obtain rfl := Option.some.inj (ht.symm.trans hu)
      exact ⟨rfl, rfl⟩
    | _ => simp [PrimaryTree.yield] at h
  | integer digits value ht =>
    cases u with
    | integer digits' value' hu =>
      obtain ⟨rfl, rfl⟩ : digits = digits' ∧ x = y := by simpa [PrimaryTree.yield] using h
      obtain rfl := Option.some.inj (ht.symm.trans hu)
      exact ⟨rfl, rfl⟩
    | _ => simp [PrimaryTree.yield] at h
  | negative digits value ht =>
    cases u with
    | negative digits' value' hu =>
      obtain ⟨rfl, rfl⟩ : digits = digits' ∧ x = y := by simpa [PrimaryTree.yield] using h
      obtain rfl := Option.some.inj (ht.symm.trans hu)
      exact ⟨rfl, rfl⟩
    | _ => simp [PrimaryTree.yield] at h
  | word text value ht =>
    cases u with
    | word text' value' hu =>
      obtain ⟨rfl, rfl⟩ : text = text' ∧ x = y := by simpa [PrimaryTree.yield] using h
      obtain rfl := Option.some.inj (ht.symm.trans hu)
      exact ⟨rfl, rfl⟩
    | named text' hu call =>
      obtain ⟨rfl, _⟩ : text = text' ∧ x = call.yield ++ y := by
        simpa [PrimaryTree.yield] using h
      cases ht.symm.trans hu
    | _ => simp [PrimaryTree.yield] at h
  | named text ht call =>
    cases u with
    | word text' value' hu =>
      obtain ⟨rfl, _⟩ : text = text' ∧ call.yield ++ x = y := by
        simpa [PrimaryTree.yield] using h
      cases ht.symm.trans hu
    | named text' hu call' =>
      obtain ⟨rfl, hc⟩ : text = text' ∧ call.yield ++ x = call'.yield ++ y := by
        simpa [PrimaryTree.yield] using h
      obtain ⟨rfl, rfl⟩ := call.yield_unique call' x y hc hx hy
      exact ⟨rfl, rfl⟩
    | _ => simp [PrimaryTree.yield] at h
  | parens inner =>
    cases u with
    | parens inner' =>
      have hi : inner.yield ++ .rParen :: x = inner'.yield ++ .rParen :: y := by
        simpa [PrimaryTree.yield] using h
      obtain ⟨rfl, hr⟩ := inner.yield_unique inner' _ _ hi (stops_rParen x) (stops_rParen y)
      exact ⟨rfl, (List.cons.inj hr).2⟩
    | _ => simp [PrimaryTree.yield] at h
termination_by structural t

theorem LinksTree.yield_unique (t u : LinksTree) (x y : List Terminal)
    (h : t.yield ++ x = u.yield ++ y) (hx : Stops x) (hy : Stops y) : t = u ∧ x = y := by
  cases t with
  | nil =>
    cases u with
    | nil => exact ⟨rfl, h⟩
    | cons member call links =>
      -- the rest of the one would go on with a dot
      have hd : x.head? = some .dot := by
        rw [show x = _ from h]
        rfl
      exact (hx.2 hd).elim
  | cons member call links =>
    cases u with
    | nil =>
      have hd : y.head? = some .dot := by
        rw [show y = _ from h.symm]
        rfl
      exact (hy.2 hd).elim
    | cons member' call' links' =>
      obtain ⟨rfl, hc⟩ : member = member' ∧
          call.yield ++ (links.yield ++ x) = call'.yield ++ (links'.yield ++ y) := by
        simpa [LinksTree.yield] using h
      obtain ⟨rfl, hl⟩ := call.yield_unique call' _ _ hc (noCall_links links x hx.1)
        (noCall_links links' y hy.1)
      obtain ⟨rfl, rfl⟩ := links.yield_unique links' x y hl hx hy
      exact ⟨rfl, rfl⟩
termination_by structural t

theorem CallTree.yield_unique (t u : CallTree) (x y : List Terminal)
    (h : t.yield ++ x = u.yield ++ y) (hx : NoCall x) (hy : NoCall y) : t = u ∧ x = y := by
  cases t with
  | absent =>
    cases u with
    | absent => exact ⟨rfl, h⟩
    | empty => exact (hx (by rw [show x = _ from h]; rfl)).elim
    | args list => exact (hx (by rw [show x = _ from h]; rfl)).elim
  | empty =>
    cases u with
    | absent => exact (hy (by rw [show y = _ from h.symm]; rfl)).elim
    | empty => exact ⟨rfl, by simpa [CallTree.yield] using h⟩
    | args list =>
      have hl : .rParen :: x = list.yield ++ .rParen :: y := by simpa [CallTree.yield] using h
      obtain ⟨a, w, hw, ha⟩ := list.yield_begins
      rw [hw] at hl
      exact (ha (List.cons.inj hl).1.symm).elim
  | args list =>
    cases u with
    | absent => exact (hy (by rw [show y = _ from h.symm]; rfl)).elim
    | empty =>
      have hl : list.yield ++ .rParen :: x = .rParen :: y := by simpa [CallTree.yield] using h
      obtain ⟨a, w, hw, ha⟩ := list.yield_begins
      rw [hw] at hl
      exact (ha (List.cons.inj hl).1).elim
    | args list' =>
      have hl : list.yield ++ .rParen :: x = list'.yield ++ .rParen :: y := by
        simpa [CallTree.yield] using h
      obtain ⟨rfl, rfl⟩ := list.yield_unique list' x y hl
      exact ⟨rfl, rfl⟩
termination_by structural t

theorem ArgsTree.yield_unique (t u : ArgsTree) (x y : List Terminal)
    (h : t.yield ++ .rParen :: x = u.yield ++ .rParen :: y) : t = u ∧ x = y := by
  cases t with
  | one arg =>
    cases u with
    | one arg' =>
      obtain ⟨rfl, hr⟩ := arg.yield_unique arg' _ _ h (stops_rParen x) (stops_rParen y)
      exact ⟨rfl, (List.cons.inj hr).2⟩
    | cons arg' list' =>
      simp only [ArgsTree.yield, List.append_assoc] at h
      obtain ⟨_, hr⟩ := arg.yield_unique arg' _ _ h (stops_rParen x) (stops_comma _)
      cases (List.cons.inj hr).1
  | cons arg list =>
    simp only [ArgsTree.yield, List.append_assoc] at h
    cases u with
    | one arg' =>
      obtain ⟨_, hr⟩ := arg.yield_unique arg' _ _ h (stops_comma _) (stops_rParen y)
      cases (List.cons.inj hr).1
    | cons arg' list' =>
      simp only [ArgsTree.yield, List.append_assoc] at h
      obtain ⟨rfl, hr⟩ := arg.yield_unique arg' _ _ h (stops_comma _) (stops_comma _)
      obtain ⟨rfl, rfl⟩ := list.yield_unique list' x y (List.cons.inj hr).2
      exact ⟨rfl, rfl⟩
termination_by structural t

end

end ScriptConsole
