import ScriptConsole.Proofs.Expr.Writing
import ScriptConsole.Proofs.Token.Spacing

namespace ScriptConsole

/-- Every token of an expression is a terminal of the grammar, blanks apart. -/
theorem terminal_of_parseExpression {source : String} {e : Expr}
    (h : parseExpression source = .ok e) {t : Token} (ht : t ∈ tokenize source)
    (hblank : t.kind ≠ .whitespace) : t.terminal ≠ .foreign := by
  intro hforeign
  obtain ⟨tree, hts, _⟩ := (parseExpression_iff source e).1 h
  have hmem : t ∈ significantTokens source := List.mem_filter.2 ⟨ht, by simpa using hblank⟩
  apply tree.foreign_not_mem
  rw [← hts, ← hforeign]
  exact List.mem_map_of_mem hmem

theorem closed_of_parseExpression {source : String} {e : Expr}
    (h : parseExpression source = .ok e) : ∀ t ∈ tokenize source, t.kind ≠ .unterminatedString := by
  intro t ht hkind
  apply terminal_of_parseExpression h ht
  · simp [hkind]
  · rw [Token.terminal, hkind]

theorem significantTokens_semicolon {source : String}
    (h : ∀ t ∈ tokenize source, t.kind ≠ .unterminatedString) :
    significantTokens (source ++ ";") =
      significantTokens source ++ [⟨.semicolon, ";", byteSize source.toList⟩] := by
  rw [significantTokens, tokenize_semicolon source h, List.filter_append]
  rfl

/-- A name, a sign and what is behind them are read one after another, whatever blanks are between
the name and the sign. -/
theorem filter_name_sign {name : String} (hname : isIdentifier name = true) {gap sign : List Char}
    (hgap : ∀ c ∈ gap, isTokenBlank c = true) {kind : TokenKind} (hsign : kind.Form sign)
    (hchars : ∀ c ∈ sign, isOperatorChar c = true) (hkind : kind ≠ .whitespace)
    {rest : List Char} (hrest : kind.Ends rest) :
    (tokensFrom 0 (name.toList ++ (gap ++ (sign ++ rest)))).filter (·.kind ≠ .whitespace) =
      ⟨.ident, name, 0⟩ :: ⟨kind, String.ofList sign, byteSize (name.toList ++ gap)⟩ ::
        (tokensFrom (byteSize (name.toList ++ gap) + byteSize sign) rest).filter
          (·.kind ≠ .whitespace) := by
  have hform : TokenKind.ident.Form name.toList := (isIdentifier_iff_form name).1 hname
  have hends : TokenKind.ident.Ends (gap ++ (sign ++ rest)) := by
    intro d hd
    apply isIdentContinue_sign
    cases gap with
    | cons b gap =>
      cases hd
      exact isTokenBlank_sign (hgap _ List.mem_cons_self)
    | nil =>
      cases sign with
      | nil => exact absurd rfl hsign.ne_nil
      | cons c sign =>
        cases hd
        exact (isOperatorChar_sign (hchars _ List.mem_cons_self)).1
  rw [tokensFrom_form 0 .ident _ _ hform hends, List.filter_cons_of_pos rfl,
    filter_blanks _ gap _ hgap, tokensFrom_form _ kind sign rest hsign hrest,
    List.filter_cons_of_pos (by simpa using hkind), String.ofList_toList, byteSize_append,
    Nat.zero_add]

theorem filter_line (n : Nat) {gap : List Char} (hgap : ∀ c ∈ gap, isTokenBlank c = true)
    (line : String) : (tokensFrom n (gap ++ line.toList)).filter (·.kind ≠ .whitespace) =
      (significantTokens line).map (Token.shift (n + byteSize gap)) := by
  rw [filter_blanks n gap line.toList hgap, tokensFrom_eq_map_tokenize, significantTokens,
    List.filter_map]
  rfl

/-- Behind a name and a sign of assignment, with blanks or none around it, a line has the tokens
that it has without them.  The sign must not go on with what is behind it. -/
theorem significantTokens_assign {name : String} (hname : isIdentifier name = true)
    {before after : String} (hbefore : ∀ c ∈ before.toList, isTokenBlank c = true)
    (hafter : ∀ c ∈ after.toList, isTokenBlank c = true) (line : String)
    (hline : TokenKind.assign.Ends (after ++ line).toList) :
    significantTokens (name ++ before ++ "=" ++ (after ++ line)) =
      ⟨.ident, name, 0⟩ :: ⟨.assign, "=", byteSize (name.toList ++ before.toList)⟩ ::
        (significantTokens line).map (Token.shift
          (byteSize (name.toList ++ before.toList) + byteSize ['='] + byteSize after.toList)) := by
  have htext : (name ++ before ++ "=" ++ (after ++ line)).toList =
      name.toList ++ (before.toList ++ (['='] ++ (after ++ line).toList)) := by simp
  have hsign : ∀ c ∈ ['='], isOperatorChar c = true := List.forall_mem_singleton.2 rfl
  rw [significantTokens, tokenize, htext,
    filter_name_sign hname hbefore .assign hsign (by decide) hline, String.toList_append,
    filter_line _ hafter]

theorem significantTokens_ended {source : String} {e : Expr} (h : parseExpression source = .ok e)
    {stop : String} (hstop : stop = "" ∨ stop = ";") :
    ∃ ending, StatementEnd ending ∧
      significantTokens (source ++ stop) = significantTokens source ++ ending := by
  rcases hstop with rfl | rfl
  · exact ⟨[], .nothing, by rw [String.append_empty, List.append_nil]⟩
  · exact ⟨_, .semicolon _ rfl, significantTokens_semicolon (closed_of_parseExpression h)⟩

theorem map_terminal_of_bare {ts us : List Token} (h : ts.map Token.bare = us.map Token.bare) :
    ts.map Token.terminal = us.map Token.terminal := by
  have hbare (ws : List Token) : ws.map Token.terminal =
      (ws.map Token.bare).map fun b => (⟨b.1, b.2, 0⟩ : Token).terminal := by
    rw [List.map_map]
    rfl
  rw [hbare ts, hbare us, h]

theorem statementEnd_of_bare {ts us : List Token} (h : ts.map Token.bare = us.map Token.bare)
    (hus : StatementEnd us) : StatementEnd ts := by
  cases hus with
  | nothing =>
    rw [List.map_eq_nil_iff.1 h]
    exact .nothing
  | semicolon c hc =>
    obtain ⟨t, rfl, ht⟩ := List.map_eq_singleton_iff.1 h
    exact .semicolon t ((congrArg Prod.fst ht).trans hc)

section Ended
variable {source : String} {e : Expr} (h : parseExpression source = .ok e) {stop : String}
variable (hstop : stop = "" ∨ stop = ";")
include h hstop

/-- The statement of an expression, ended or not, with blanks or none between its tokens. -/
theorem parseStatement_spaced {line : String}
    (hline : Spaced ((tokenize (source ++ stop)).map Token.text) line.toList) :
    parseStatement line = .ok (.expr e) := by
  have hclosed : ∀ t ∈ tokenize (source ++ stop), t.kind ≠ .unterminatedString := by
    have hsource := closed_of_parseExpression h
    rcases hstop with rfl | rfl
    · rwa [String.append_empty]
    · rw [tokenize_semicolon source hsource]
      exact List.forall_mem_append.2 ⟨hsource, by simp⟩
  obtain ⟨ending, hending, htokens⟩ := significantTokens_ended h hstop
  obtain ⟨t, hts, rfl, hdeep⟩ := (parseExpression_iff source e).1 h
  have hbare := bare_spaced hclosed hline
  rw [← significantTokens, ← significantTokens, htokens, List.map_append] at hbare
  obtain ⟨ts, ends, hcut, hfront, hback⟩ := List.map_eq_append_iff.1 hbare
  exact parseStatement_of_yield t hdeep ts ends ((map_terminal_of_bare hfront).trans hts)
    (statementEnd_of_bare hback hending) line hcut

theorem parseStatement_ended : parseStatement (source ++ stop) = .ok (.expr e) :=
  parseStatement_spaced h hstop (spaced_tokensFrom 0 _)

end Ended

/-- The assignment of an expression, ended or not, with blanks or none around its sign. -/
theorem parseStatement_assign {name : String} (hname : isIdentifier name = true)
    {before after : String} (hbefore : ∀ c ∈ before.toList, isTokenBlank c = true)
    (hafter : ∀ c ∈ after.toList, isTokenBlank c = true) {source : String} {e : Expr}
    (h : parseExpression source = .ok e) {stop : String} (hstop : stop = "" ∨ stop = ";")
    (hends : TokenKind.assign.Ends (after ++ (source ++ stop)).toList) :
    parseStatement (name ++ before ++ "=" ++ (after ++ (source ++ stop))) =
      .ok (.assign name e) := by
  have hline := significantTokens_assign hname hbefore hafter (source ++ stop) hends
  obtain ⟨ending, hending, htokens⟩ := significantTokens_ended h hstop
  obtain ⟨t, hts, rfl, hdeep⟩ := (parseExpression_iff source e).1 h
  have hyield (n : Nat) :
      ((significantTokens source).map (Token.shift n)).map Token.terminal = t.yield := by
    rw [List.map_map, ← hts]
    rfl
  have hended (n : Nat) : StatementEnd (ending.map (Token.shift n)) := by
    cases hending with
    | nothing => exact .nothing
    | semicolon c hc => exact .semicolon _ hc
  rw [htokens, List.map_append] at hline
  exact parseStatement_assign_of_yield t hdeep _ _ (hyield _) (hended _) _ ⟨.ident, name, 0⟩
    ⟨.assign, "=", _⟩ rfl rfl hline

end ScriptConsole
