import ScriptConsole.Proofs.Expr.Lines

namespace ScriptConsole

/-- Where an expression begins with an operator, this is a lone minus. -/
theorem minus_of_parseExpression {source : String} {e : Expr} (h : parseExpression source = .ok e)
    {c : Char} {cs : List Char} (hsource : source.toList = c :: cs)
    (hc : isOperatorChar c = true) : c = '-' ∧ TokenKind.operator.Ends cs := by
  obtain ⟨run, rest, rfl, hrun, hrest⟩ := exists_run isOperatorChar cs
  have hall : ∀ d ∈ c :: run, isOperatorChar d = true := List.forall_mem_cons.2 ⟨hc, hrun⟩
  have hfirst (kind : TokenKind) (hform : kind.Form (c :: run)) (hends : kind.Ends rest)
      (hblank : kind ≠ .whitespace) :
      (⟨kind, String.ofList (c :: run), 0⟩ : Token).terminal ≠ .foreign := by
    have htokens := tokensFrom_form 0 kind (c :: run) rest hform hends
    rw [List.cons_append, ← hsource] at htokens
    apply terminal_of_parseExpression h _ hblank
    rw [tokenize, htokens]
    exact List.mem_cons_self
  by_cases hlone : c :: run = ['=']
  · have hassign := hfirst .assign (hlone ▸ .assign) hrest (by decide)
    exact absurd rfl hassign
  · have hform : TokenKind.operator.Form (c :: run) :=
      .operator _ (List.cons_ne_nil _ _) hall hlone
    have hoperator := hfirst .operator hform hrest (by decide)
    have htext : String.ofList (c :: run) = "-" := by
      apply Decidable.byContradiction
      exact fun hne => hoperator (if_neg hne)
    have hchars : c :: run = ['-'] := by
      rw [← String.toList_ofList (l := c :: run), htext]
      rfl
    obtain ⟨rfl, rfl⟩ := List.cons.inj hchars
    exact ⟨rfl, hrest⟩

theorem parseStatement_operator {line : String} {target operator : Token} {ts : List Token}
    (htarget : target.kind = .ident) (hoperator : operator.kind = .operator)
    (htokens : significantTokens line = target :: operator :: ts) :
    parseStatement line = .error (.unexpected operator) := by
  have hcall : Takes (optionalArguments (expression 127)) (operator :: ts) none (operator :: ts) :=
    (optionalArguments_takes _ _ _ _).2 (.inl ⟨rfl, rfl, by simp [hoperator]⟩)
  obtain ⟨e, hfirst⟩ : ∃ e, PrimaryRead (expression 127) (target :: operator :: ts) e
      (operator :: ts) := by
    cases hword : literalWord? target.text with
    | some l => exact ⟨_, .word htarget hword⟩
    | none => exact ⟨_, .named htarget hword hcall⟩
  have hlinks : Takes (memberLinks 127 e) (operator :: ts) e (operator :: ts) :=
    (memberLinks_stops 127 e e _ _ (by simp [hoperator])).2 ⟨rfl, rfl⟩
  obtain ⟨_, hread⟩ : Reads (expression maxDepth) (target :: operator :: ts) e (operator :: ts) :=
    (expression_reads 127 _ _ e).2 ⟨e, _, (primary_reads _ _ _ _).2 hfirst, hlinks⟩
  have hclosing : closingExpression (target :: operator :: ts) = .error (.unexpected operator) := by
    rw [closingExpression, hread]
    change (if operator.kind = .semicolon then _ else _) = _
    rw [if_neg (by simp [hoperator])]
    rfl
  rw [parseStatement, htokens]
  dsimp only
  rw [if_neg (by simp [hoperator]), hclosing]
  rfl

theorem head?_behind_blanks {gap text : String} (hgap : ∀ c ∈ gap.toList, isTokenBlank c = true)
    {c : Char} (hc : isTokenBlank c = false) :
    (gap ++ text).toList.head? = some c ↔ gap = "" ∧ text.toList.head? = some c := by
  rw [String.toList_append, ← String.toList_eq_nil_iff]
  cases hblanks : gap.toList with
  | nil => simp
  | cons b blanks =>
    have hb : isTokenBlank b = true := hgap b (by simp [hblanks])
    have hne : b ≠ c := fun hbc => Bool.noConfusion (hc.symm.trans (hbc ▸ hb))
    simp [hne]

/-- The sign does not go on with what stands behind it, unless this is a minus. -/
theorem assign_ends {after source : String} (hafter : ∀ c ∈ after.toList, isTokenBlank c = true)
    {e : Expr} (h : parseExpression source = .ok e)
    (hminus : (after ++ source).toList.head? ≠ some '-') :
    TokenKind.assign.Ends (after ++ source).toList := by
  intro d hd
  cases hblank : isTokenBlank d with
  | true => exact isOperatorChar_blank hblank
  | false =>
    obtain ⟨_, hfirst⟩ := (head?_behind_blanks hafter hblank).1 hd
    obtain ⟨cs, hcs⟩ := List.head?_eq_some_iff.1 hfirst
    rw [Bool.eq_false_iff]
    intro hoperator
    obtain ⟨rfl, _⟩ := minus_of_parseExpression h hcs hoperator
    exact hminus hd

/-- Directly in front of a minus the sign is read as one operator with it. -/
theorem significantTokens_minus {name : String} (hname : isIdentifier name = true)
    {before : String} (hbefore : ∀ c ∈ before.toList, isTokenBlank c = true) {line : String}
    {cs : List Char} (hline : line.toList = '-' :: cs) (hends : TokenKind.operator.Ends cs) :
    significantTokens (name ++ before ++ "=" ++ line) =
      ⟨.ident, name, 0⟩ :: ⟨.operator, "=-", byteSize (name.toList ++ before.toList)⟩ ::
        (tokensFrom (byteSize (name.toList ++ before.toList) + byteSize ['=', '-']) cs).filter
          (·.kind ≠ .whitespace) := by
  have htext : (name ++ before ++ "=" ++ line).toList =
      name.toList ++ (before.toList ++ (['=', '-'] ++ cs)) := by simp [hline]
  have hchars : ∀ c ∈ ['=', '-'], isOperatorChar c = true :=
    List.forall_mem_cons.2 ⟨rfl, List.forall_mem_singleton.2 rfl⟩
  have hsign : TokenKind.operator.Form ['=', '-'] :=
    .operator _ (List.cons_ne_nil _ _) hchars (by decide)
  rw [significantTokens, tokenize, htext,
    filter_name_sign hname hbefore hsign hchars (by decide) hends]

theorem parseStatement_sign {name : String} (hname : isIdentifier name = true)
    {before after : String} (hbefore : ∀ c ∈ before.toList, isTokenBlank c = true)
    (hafter : ∀ c ∈ after.toList, isTokenBlank c = true) {source : String} {e : Expr}
    (h : parseExpression source = .ok e) :
    parseStatement (name ++ before ++ "=" ++ (after ++ source)) =
      if (after ++ source).toList.head? = some '-' then
        .error (.unexpectedToken "=-" (name ++ before).utf8ByteSize)
      else .ok (.assign name e) := by
  split
  · next hminus =>
    obtain ⟨rfl, hhead⟩ := (head?_behind_blanks hafter rfl).1 hminus
    obtain ⟨cs, hcs⟩ := List.head?_eq_some_iff.1 hhead
    obtain ⟨_, hends⟩ := minus_of_parseExpression h hcs (by decide)
    have htokens := significantTokens_minus hname hbefore hcs hends
    rw [← String.empty_append (s := source)] at htokens
    rw [parseStatement_operator rfl rfl htokens, ← byteSize_toList, String.toList_append]
    rfl
  · next hminus =>
    have hstop : "" = "" ∨ "" = ";" := .inl rfl
    have hends := assign_ends hafter h hminus
    rw [← String.append_empty (s := source)] at hends ⊢
    exact parseStatement_assign hname hbefore hafter h hstop hends

/-- Without blanks around its sign a line assigns the expression to the name, but where the
expression begins with a minus the line is refused, because `=-` is read as one operator.  With blanks
the line is an assignment as well, unless there are none between the sign and a minus. -/
theorem parseStatement_unspaced (name : String) (hname : isIdentifier name = true)
    (source : String) (e : Expr) (h : parseExpression source = .ok e) :
    (parseStatement (name ++ "=" ++ source) =
      if source.toList.head? = some '-' then
        .error (.unexpectedToken "=-" name.utf8ByteSize)
      else .ok (.assign name e)) ∧
    ∀ before after : String, (∀ c ∈ before.toList, isTokenBlank c = true) →
      (∀ c ∈ after.toList, isTokenBlank c = true) →
      (after = "" → source.toList.head? ≠ some '-') →
      parseStatement (name ++ before ++ "=" ++ (after ++ source)) = .ok (.assign name e) := by
  have hnone : ∀ c ∈ "".toList, isTokenBlank c = true := List.forall_mem_nil _
  constructor
  · have hline := parseStatement_sign hname hnone hnone h
    rwa [String.append_empty, String.empty_append] at hline
  · intro before after hbefore hafter hminus
    rw [parseStatement_sign hname hbefore hafter h, if_neg]
    intro hhead
    obtain ⟨hempty, hfirst⟩ := (head?_behind_blanks hafter rfl).1 hhead
    exact hminus hempty hfirst

theorem parseStatement_unspaced_length :
    parseStatement ("n" ++ "=" ++ "'='.length()") =
        .ok (.assign "n" (.invoke (.literal (.string "=")) "length" [])) ∧
      parseStatement ("n" ++ "" ++ "=" ++ (" " ++ "-1")) =
        .ok (.assign "n" (.literal (.integer (-1)))) := by
  have hlength : parseExpression "'='.length()" =
      .ok (.invoke (.literal (.string "=")) "length" []) := by with_unfolding_all rfl
  have hminus : parseExpression "-1" = .ok (.literal (.integer (-1))) := by with_unfolding_all rfl
  constructor
  · exact (parseStatement_unspaced "n" (by decide) "'='.length()" _ hlength).1
  · have hblank : ∀ c ∈ " ".toList, isTokenBlank c = true := List.forall_mem_singleton.2 rfl
    exact (parseStatement_unspaced "n" (by decide) "-1" _ hminus).2 "" " " (List.forall_mem_nil _)
      hblank (by decide)

/-- A negative number directly behind the sign is not assigned. -/
theorem minus_not_assigned :
    isIdentifier "n" = true ∧ parseExpression "-1" = .ok (.literal (.integer (-1))) ∧
      parseStatement ("n" ++ "=" ++ "-1") ≠ .ok (.assign "n" (.literal (.integer (-1)))) := by
  have herror : parseStatement ("n" ++ "=" ++ "-1") = .error (.unexpectedToken "=-" 1) := by
    with_unfolding_all rfl
  refine ⟨by decide, by with_unfolding_all rfl, ?_⟩
  rw [herror]
  nofun

end ScriptConsole
