import ScriptConsole.Proofs.Expr.Parsing
import ScriptConsole.Proofs.Token.Form

namespace ScriptConsole

namespace Terminal

def kind : Terminal → TokenKind
  | string _ => .string
  | integer _ => .integer
  | ident _ => .ident
  | minus => .operator
  | dot => .dot
  | comma => .comma
  | lParen => .lParen
  | rParen => .rParen
  | foreign => .unknown

def text : Terminal → List Char
  | string source => source.toList
  | integer digits => digits.toList
  | ident name => name.toList
  | minus => ['-']
  | dot => ['.']
  | comma => [',']
  | lParen => ['(']
  | rParen => [')']
  | foreign => []

/-- The text of the terminal has the form of its kind. -/
def Formed (a : Terminal) : Prop := a.kind.Form a.text

theorem formed_punctuation (a : Terminal) (c : Char) (htext : a.text = [c])
    (h : (c, a.kind) ∈ punctuationMarks) : a.Formed := by
  rw [Formed, htext]
  exact .punctuation c a.kind h

theorem formed_dot : dot.Formed := formed_punctuation dot '.' rfl (by decide)

theorem formed_comma : comma.Formed := formed_punctuation comma ',' rfl (by decide)

theorem formed_lParen : lParen.Formed := formed_punctuation lParen '(' rfl (by decide)

theorem formed_rParen : rParen.Formed := formed_punctuation rParen ')' rfl (by decide)

theorem formed_minus : minus.Formed :=
  .operator ['-'] (List.cons_ne_nil _ _) (List.forall_mem_singleton.2 rfl) (by decide)

theorem kind_ne_whitespace (a : Terminal) : a.kind ≠ .whitespace := by
  cases a <;> simp [kind]

theorem terminal_token (a : Terminal) (ha : a.Formed) (offset : Nat) :
    (⟨a.kind, String.ofList a.text, offset⟩ : Token).terminal = a := by
  cases a with
  | foreign => exact absurd rfl ha.ne_nil
  | string | integer | ident => simp [Token.terminal, kind, text]
  | _ => rfl

end Terminal

/-- The texts of terminals side by side. -/
def written (w : List Terminal) : List Char := w.flatMap Terminal.text

@[simp] theorem written_nil : written [] = [] := rfl

@[simp] theorem written_cons (a : Terminal) (w : List Terminal) :
    written (a :: w) = a.text ++ written w := rfl

@[simp] theorem written_append (v w : List Terminal) : written (v ++ w) = written v ++ written w :=
  List.flatMap_append

/-- Each terminal is formed, and none goes on with what is written behind it. -/
inductive Readable : List Terminal → Prop where
  | nil : Readable []
  | cons (a : Terminal) (w : List Terminal) (ha : a.Formed) (hends : a.kind.Ends (written w))
      (hw : Readable w) : Readable (a :: w)

theorem tokensFrom_written (offset : Nat) (w : List Terminal) (h : Readable w) :
    (tokensFrom offset (written w)).map Token.terminal = w ∧
      ∀ t ∈ tokensFrom offset (written w), t.kind ≠ .whitespace := by
  induction h generalizing offset with
  | nil =>
    rw [written_nil, tokensFrom]
    exact ⟨rfl, by simp⟩
  | cons a w ha hends _ ih =>
    obtain ⟨hmap, hblank⟩ := ih (offset + byteSize a.text)
    rw [written_cons, tokensFrom_form offset a.kind a.text _ ha hends]
    constructor
    · rw [List.map_cons, a.terminal_token ha, hmap]
    · intro t ht
      rcases List.mem_cons.1 ht with rfl | ht
      · exact a.kind_ne_whitespace
      · exact hblank t ht

theorem significantTokens_written (w : List Terminal) (h : Readable w) :
    (significantTokens (String.ofList (written w))).map Token.terminal = w := by
  obtain ⟨hmap, hblank⟩ := tokensFrom_written 0 w h
  rw [significantTokens, tokenize, String.toList_ofList,
    List.filter_eq_self.2 (by simpa using hblank), hmap]

/-- What may stand behind a name or a number in an expression. -/
inductive Closing : List Terminal → Prop where
  | nil : Closing []
  | lParen (w : List Terminal) : Closing (.lParen :: w)
  | rParen (w : List Terminal) : Closing (.rParen :: w)
  | comma (w : List Terminal) : Closing (.comma :: w)
  | dot (name : String) (w : List Terminal) : Closing (.dot :: .ident name :: w)

theorem ends_sign (c : Char) (cs : List Char) (hc : c ∈ signs) (hdot : c ≠ '.') :
    TokenKind.ident.Ends (c :: cs) ∧ TokenKind.integer.Ends (c :: cs) := by
  constructor
  · intro d hd
    cases hd
    exact isIdentContinue_sign hc
  · constructor
    · intro d hd
      cases hd
      exact isDigit_sign hc
    · intro f fs h
      exact absurd (List.cons.inj h).1 hdot

theorem ident_begins (name : String) (h : (Terminal.ident name).Formed) :
    ∃ c cs, name.toList = c :: cs ∧ c.isDigit = false := by
  generalize htext : name.toList = text
  rw [Terminal.Formed, Terminal.text, htext] at h
  cases h with
  | ident c cs hc _ =>
    refine ⟨c, cs, rfl, ?_⟩
    cases hd : c.isDigit with
    | false => rfl
    | true =>
      rw [isIdentStart_of_isDigit hd] at hc
      cases hc
  | punctuation c _ h => simp [punctuationMarks, Terminal.kind] at h

theorem closing_ends (w : List Terminal) (hw : Readable w) (h : Closing w) :
    TokenKind.ident.Ends (written w) ∧ TokenKind.integer.Ends (written w) := by
  cases h with
  | nil => exact ⟨TokenKind.ends_nil _, TokenKind.ends_nil _⟩
  | lParen w => exact ends_sign '(' _ (by decide) (by decide)
  | rParen w => exact ends_sign ')' _ (by decide) (by decide)
  | comma w => exact ends_sign ',' _ (by decide) (by decide)
  | dot name w =>
    cases hw with
    | cons _ _ _ _ hw =>
      cases hw with
      | cons _ _ hname _ _ =>
        obtain ⟨c, cs, htext, hc⟩ := ident_begins name hname
        constructor
        · intro d hd
          cases hd
          exact isIdentContinue_sign (by decide)
        · constructor
          · intro d hd
            cases hd
            rfl
          · intro f fs h
            simp only [written_cons, Terminal.text, htext, List.cons_append, List.nil_append,
              List.cons.injEq, true_and] at h
            rw [← h.1, hc]

theorem integer_begins (digits : String) (h : (Terminal.integer digits).Formed) :
    ∃ c cs, digits.toList = c :: cs ∧ c.isDigit = true := by
  generalize htext : digits.toList = text
  rw [Terminal.Formed, Terminal.text, htext] at h
  cases h with
  | integer _ hne hdigits =>
    cases text with
    | nil => exact absurd rfl hne
    | cons c cs => exact ⟨c, cs, rfl, hdigits c List.mem_cons_self⟩
  | punctuation c _ h => simp [punctuationMarks, Terminal.kind] at h

theorem minus_ends (digits : String) (w : List Terminal) (h : (Terminal.integer digits).Formed) :
    TokenKind.operator.Ends (written (.integer digits :: w)) := by
  obtain ⟨c, cs, htext, hc⟩ := integer_begins digits h
  have hno : isOperatorChar c = false := by
    cases ho : isOperatorChar c with
    | false => rfl
    | true =>
      rw [isDigit_sign (isOperatorChar_sign ho).1] at hc
      cases hc
  intro d hd
  rw [written_cons, Terminal.text, htext] at hd
  cases hd
  exact hno

mutual

theorem ExprTree.readable (t : ExprTree) (ht : ∀ a ∈ t.yield, a.Formed) (rest : List Terminal)
    (hrest : Readable rest) (hc : Closing rest) : Readable (t.yield ++ rest) := by
  cases t with
  | mk first links =>
    rw [ExprTree.yield] at ht ⊢
    obtain ⟨hfirst, hlinks⟩ := List.forall_mem_append.1 ht
    obtain ⟨hr, hcl⟩ := links.readable hlinks rest hrest hc
    rw [List.append_assoc]
    exact first.readable hfirst _ hr hcl
termination_by structural t

theorem PrimaryTree.readable (t : PrimaryTree) (ht : ∀ a ∈ t.yield, a.Formed)
    (rest : List Terminal) (hrest : Readable rest) (hc : Closing rest) :
    Readable (t.yield ++ rest) := by
  obtain ⟨hident, hinteger⟩ := closing_ends rest hrest hc
  cases t with
  | string source text _ => exact .cons _ _ (ht _ (List.mem_singleton_self _)) trivial hrest
  | integer digits value _ => exact .cons _ _ (ht _ (List.mem_singleton_self _)) hinteger hrest
  | negative digits value _ =>
    rw [PrimaryTree.yield] at ht
    have hdigits : (Terminal.integer digits).Formed := ht _ (by simp)
    exact .cons _ _ Terminal.formed_minus (minus_ends digits rest hdigits)
      (.cons _ _ hdigits hinteger hrest)
  | word text value _ => exact .cons _ _ (ht _ (List.mem_singleton_self _)) hident hrest
  | named text _ call =>
    rw [PrimaryTree.yield] at ht ⊢
    obtain ⟨hname, hcall⟩ := List.forall_mem_cons.1 ht
    obtain ⟨hr, hcl⟩ := call.readable hcall rest hrest hc
    exact .cons _ _ hname (closing_ends _ hr hcl).1 hr
  | parens inner =>
    rw [PrimaryTree.yield] at ht
    have hinner : ∀ a ∈ inner.yield, a.Formed := fun a ha => ht a (by simp [ha])
    have hin := inner.readable hinner (.rParen :: rest)
      (.cons _ _ Terminal.formed_rParen trivial hrest) (.rParen rest)
    rw [PrimaryTree.yield, List.cons_append, List.append_assoc]
    exact .cons _ _ Terminal.formed_lParen trivial hin
termination_by structural t

theorem LinksTree.readable (t : LinksTree) (ht : ∀ a ∈ t.yield, a.Formed) (rest : List Terminal)
    (hrest : Readable rest) (hc : Closing rest) :
    Readable (t.yield ++ rest) ∧ Closing (t.yield ++ rest) := by
  cases t with
  | nil => exact ⟨hrest, hc⟩
  | cons member call links =>
    rw [LinksTree.yield] at ht
    have hmember : (Terminal.ident member).Formed := ht _ (by simp)
    have hcall : ∀ a ∈ call.yield, a.Formed := fun a ha => ht a (by simp [ha])
    have hlinks : ∀ a ∈ links.yield, a.Formed := fun a ha => ht a (by simp [ha])
    obtain ⟨hr, hcl⟩ := links.readable hlinks rest hrest hc
    obtain ⟨hr', hcl'⟩ := call.readable hcall _ hr hcl
    have hname : Readable (.ident member :: (call.yield ++ (links.yield ++ rest))) :=
      .cons _ _ hmember (closing_ends _ hr' hcl').1 hr'
    rw [LinksTree.yield, List.cons_append, List.cons_append, List.append_assoc]
    exact ⟨.cons _ _ Terminal.formed_dot trivial hname, .dot member _⟩
termination_by structural t

theorem CallTree.readable (t : CallTree) (ht : ∀ a ∈ t.yield, a.Formed) (rest : List Terminal)
    (hrest : Readable rest) (hc : Closing rest) :
    Readable (t.yield ++ rest) ∧ Closing (t.yield ++ rest) := by
  cases t with
  | absent => exact ⟨hrest, hc⟩
  | empty =>
    have hclose : Readable (.rParen :: rest) := .cons _ _ Terminal.formed_rParen trivial hrest
    exact ⟨.cons _ _ Terminal.formed_lParen trivial hclose, .lParen _⟩
  | args list =>
    rw [CallTree.yield] at ht
    have hlist : ∀ a ∈ list.yield, a.Formed := fun a ha => ht a (by simp [ha])
    have hin := list.readable hlist (.rParen :: rest)
      (.cons _ _ Terminal.formed_rParen trivial hrest) (.rParen rest)
    rw [CallTree.yield, List.cons_append, List.append_assoc]
    exact ⟨.cons _ _ Terminal.formed_lParen trivial hin, .lParen _⟩
termination_by structural t

theorem ArgsTree.readable (t : ArgsTree) (ht : ∀ a ∈ t.yield, a.Formed) (rest : List Terminal)
    (hrest : Readable rest) (hc : Closing rest) : Readable (t.yield ++ rest) := by
  cases t with
  | one arg => exact arg.readable ht rest hrest hc
  | cons arg list =>
    rw [ArgsTree.yield] at ht
    have harg : ∀ a ∈ arg.yield, a.Formed := fun a ha => ht a (by simp [ha])
    have hlist : ∀ a ∈ list.yield, a.Formed := fun a ha => ht a (by simp [ha])
    have hmore : Readable (.comma :: (list.yield ++ rest)) :=
      .cons _ _ Terminal.formed_comma trivial (list.readable hlist rest hrest hc)
    rw [ArgsTree.yield, List.append_assoc]
    exact arg.readable harg _ hmore (.comma _)
termination_by structural t

end

/-- What a derivation tree derives can be read back from its text. -/
theorem tokens_of_yield (t : ExprTree) (h : ∀ a ∈ t.yield, a.Formed) :
    (significantTokens (String.ofList (written t.yield))).map Token.terminal = t.yield := by
  have hr := t.readable h [] .nil .nil
  rw [List.append_nil] at hr
  exact significantTokens_written t.yield hr

/-- The text of a derivation parses as the expression derived, when the derivation stays within the
depth limit and not otherwise. -/
theorem parseExpression_written (t : ExprTree) (h : ∀ a ∈ t.yield, a.Formed) :
    parseExpression (String.ofList (written t.yield)) = .ok t.expr ↔ t.deepest 0 ≤ maxDepth := by
  rw [parseExpression_iff, tokens_of_yield t h]
  constructor
  · intro hparse
    obtain ⟨u, hyield, _, hdeep⟩ := hparse
    have hend : Stops [] := ⟨by simp [NoCall], by simp⟩
    obtain ⟨rfl, _⟩ := t.yield_unique u [] [] (by rw [hyield]) hend hend
    exact hdeep
  · intro hdeep
    exact ⟨t, rfl, rfl, hdeep⟩

end ScriptConsole
