import ScriptConsole.Proofs.Chain.Layout
import ScriptConsole.Proofs.Expr.Faults
import ScriptConsole.Proofs.Token.Strings
import ScriptConsole.Resolution.Chain

namespace ScriptConsole

/-- The parsers find no literal invalid but integers, with or without a sign. -/
theorem integer_of_raised {line text : String}
    (h : (ParseError.invalidLiteral text).Raised (tokenize line)) :
    ∃ t ∈ tokenize line, t.kind = .integer ∧ (text = t.text ∨ text = "-" ++ t.text) ∧
      integerValue? text = none := by
  generalize herror : ParseError.invalidLiteral text = e at h
  cases h with
  | string ht hk hnone =>
    obtain ⟨inside, hsome⟩ := unquote_string line _ ht hk
    cases hnone.symm.trans hsome
  | @integer t sign hsign ht hk hnone =>
    cases herror
    refine ⟨t, ht, hk, ?_, hnone⟩
    rcases hsign with rfl | rfl
    · exact .inl String.empty_append
    · exact .inr rfl
  | unexpectedToken | unterminatedString | unexpectedEnd | tooDeep => cases herror

/-- An integer does not look like a string, and no more does one with a sign. -/
theorem unquote_signed {line : String} {t : Token} (ht : t ∈ tokenize line) (hk : t.kind = .integer)
    {text : String} (htext : text = t.text ∨ text = "-" ++ t.text) : unquote text = none := by
  rcases htext with rfl | rfl
  · exact unquote_integer line t ht hk
  · simp [unquote]

theorem literal_head_token {line source : String} {chain : AccessChain}
    (hsplit : splitChain line = .ok chain) (hhead : chain.head = .literal source) :
    ∃ t ∈ tokenize line, t.offset = chain.start ∧ t.text = source ∧ t.kind.isLiteral = true := by
  obtain ⟨l⟩ := splitChain_layout line chain hsplit (by simp [hhead])
  have hmem : l.first ∈ tokenize line := by rw [l.tokens]; simp
  have hfirst : l.first.head = .literal source := l.head.symm.trans hhead
  unfold Token.head at hfirst
  split at hfirst
  · cases hfirst
  · next hname => exact ⟨l.first, hmem, l.start.symm, Head.literal.inj hfirst,
      l.first_kind.resolve_left hname⟩

theorem resolveHead_string (env : Environment) {source text : String}
    (h : unquote source = some text) :
    env.resolveHead (.literal source) = .value (.string text) TypeName.string := by
  simp only [Environment.resolveHead, literalValue?, h]
  rfl

/-- The strings of a line are those texts in quotes that can be decoded. -/
structure StringsDecode (line : String) : Prop where
  closed : ∀ t ∈ tokenize line, t.kind = .string → ∃ text, unquote t.text = some text
  unclosed : ∀ t ∈ tokenize line, t.kind = .unterminatedString → unquote t.text = none
  /-- What the parsers reject as a literal is an integer, and not the text of any string. -/
  rejected : ∀ text, parseExpression line = .error (.invalidLiteral text) ∨
      parseStatement line = .error (.invalidLiteral text) →
    (∃ t ∈ tokenize line, t.kind = .integer ∧ (text = t.text ∨ text = "-" ++ t.text) ∧
      integerValue? text = none) ∧ ∀ t ∈ tokenize line, t.kind = .string → t.text ≠ text
  /-- A literal head is a token, and when this is a string, the head refers to its value. -/
  head : ∀ chain source, splitChain line = .ok chain → chain.head = .literal source →
    ∃ t ∈ tokenize line, t.offset = chain.start ∧ t.text = source ∧ t.kind.isLiteral = true ∧
      (t.kind = .string → ∃ text, unquote source = some text ∧
        ∀ env : Environment, env.resolveHead chain.head = .value (.string text) TypeName.string)

/-- The lexer and the decoder agree on what a string is. -/
theorem strings_decode (line : String) : StringsDecode line where
  closed := unquote_string line
  unclosed := unquote_unterminated line
  rejected text h := by
    have hraised : (ParseError.invalidLiteral text).Raised (tokenize line) :=
      h.elim parseExpression_raised parseStatement_raised
    obtain ⟨t, ht, hk, htext, hnone⟩ := integer_of_raised hraised
    refine ⟨⟨t, ht, hk, htext, hnone⟩, ?_⟩
    rintro u hu hstring rfl
    obtain ⟨inside, hsome⟩ := unquote_string line u hu hstring
    cases (unquote_signed ht hk htext).symm.trans hsome
  head chain source hsplit hhead := by
    obtain ⟨t, ht, hstart, rfl, hliteral⟩ := literal_head_token hsplit hhead
    refine ⟨t, ht, hstart, rfl, hliteral, ?_⟩
    intro hstring
    obtain ⟨text, hsome⟩ := unquote_string line t ht hstring
    exact ⟨text, hsome, fun env => by rw [hhead, resolveHead_string env hsome]⟩

/-- A string of one escaped quote has a member that is called with an integer of too many digits. -/
theorem strings_decode_escaped :
    let line := "\"\\\"\".at(-9223372036854775809).x"
    parseExpression line = .error (.invalidLiteral "-9223372036854775809") ∧
      (∃ t ∈ tokenize line, t.kind = .integer ∧ ("-9223372036854775809" = t.text ∨
        "-9223372036854775809" = "-" ++ t.text)) ∧
      (∃ chain, splitChain line = .ok chain ∧ ∃ text, ∀ env : Environment,
        env.resolveHead chain.head = .value (.string text) TypeName.string) ∧
      unquote "\"\\\"" = none := by
  intro line
  have hfails : (parseExpression line).map (fun _ => ()) =
      .error (.invalidLiteral "-9223372036854775809") := by decide +kernel
  have hparse := (map_error_iff _ _ _).1 hfails
  have hsplit : splitChain line = .ok ⟨0, .literal "\"\\\"\"", ⟨0, 4⟩,
      [⟨"at", some ⟨"-9223372036854775809", ⟨8, 28⟩⟩, ⟨5, 29⟩⟩], "x"⟩ := by
    decide +kernel
  have hopen : ⟨.unterminatedString, "\"\\\"", 0⟩ ∈ tokenize "\"\\\"" := by decide +kernel
  refine ⟨hparse, ?_, ⟨_, hsplit, ?_⟩, (strings_decode _).unclosed _ hopen rfl⟩
  · obtain ⟨⟨t, ht, hk, htext, _⟩, _⟩ := (strings_decode line).rejected _ (.inl hparse)
    exact ⟨t, ht, hk, htext⟩
  · obtain ⟨t, ht, hstart, htext, _, hstring⟩ := (strings_decode line).head _ _ hsplit rfl
    have hfirst : ∀ t ∈ tokenize line, t.offset = 0 → t.kind = .string := by decide +kernel
    obtain ⟨text, _, href⟩ := hstring (hfirst t ht hstart)
    exact ⟨text, href⟩

end ScriptConsole
