import ScriptConsole.Proofs.Chain.Shift
import ScriptConsole.Proofs.Completion.Matching

namespace ScriptConsole.Environment

variable (env : Environment)

theorem follow_shift (n : Nat) (current : Reference) (source : String) (segments : List Segment) :
    env.follow current source (segments.map (Segment.shift n)) =
      env.follow current source segments := by
  induction segments generalizing current source with
  | nil => rfl
  | cons segment segments ih =>
    have hsource : AccessChain.extend source [segment.shift n] =
        AccessChain.extend source [segment] := extend_shift n source [segment]
    have hcall : (segment.shift n).isCall = segment.isCall := Option.isSome_map
    have hstep (text : String) : env.step current (segment.shift n) text =
        env.step current segment text := by
      rw [step, step, hcall]
      rfl
    rw [List.map_cons, follow, follow, hsource]
    simp only [hstep, ih]

theorem resolve_shift (n : Nat) (chain : AccessChain) :
    env.resolve (chain.shift n) = env.resolve chain :=
  env.follow_shift n _ _ chain.segments

theorem completion_error (config : CompletionConfig) {line : String} {error : ParseError}
    (h : splitChain line = .error error) :
    env.completion config line line.utf8ByteSize = ⟨[], []⟩ := by
  rw [completion, lineAt_end, completeLine, h]

/-- Behind a text whose own chain begins at its end, an expression is split as it is alone, with
every place further to the right by the length of the text and the same sources; and completing it
gives the same items and asks the evaluator for the same sources. -/
theorem completion_behind (config : CompletionConfig) (p e : String) (before : AccessChain)
    (hp : splitChain p = .ok before) (hstart : before.start = p.utf8ByteSize)
    (he : ∀ t ∈ (tokenize e).head?, t.kind = .ident ∨ t.kind.isLiteral = true) :
    (∀ chain, splitChain (p ++ e) = .ok chain ↔
      ∃ here, splitChain e = .ok here ∧ here.shift p.utf8ByteSize = chain) ∧
    (∀ chain here, splitChain (p ++ e) = .ok chain → splitChain e = .ok here →
      chain.headSpan = here.headSpan.shift p.utf8ByteSize ∧
        ∀ i, chain.fragment i = here.fragment i) ∧
    env.completion config (p ++ e) (p ++ e).utf8ByteSize =
      env.completion config e e.utf8ByteSize := by
  have hsplit := splitChain_behind_iff hp hstart he
  refine ⟨hsplit, ?_, ?_⟩
  · intro chain here hchain hhere
    obtain rfl := Except.ok.inj ((splitChain_behind hp hstart he hhere).symm.trans hchain)
    exact ⟨rfl, fragment_shift _ here⟩
  · cases hhere : splitChain e with
    | ok here =>
      rw [env.completion_end config (splitChain_behind hp hstart he hhere),
        env.completion_end config hhere, resolve_shift]
      rfl
    | error error =>
      cases hbehind : splitChain (p ++ e) with
      | ok chain =>
        obtain ⟨here, hok, _⟩ := (hsplit chain).1 hbehind
        cases hhere.symm.trans hok
      | error error' => rw [env.completion_error config hbehind, env.completion_error config hhere]

/-- Behind a call with a parenthesis in a string stands a string with a call behind it. -/
theorem completion_behind_call :
    (∃ chain, splitChain ("x = f('(', 1); " ++ "'é'.at(0).le") = .ok chain ∧
      chain.start = 15 ∧ chain.fragment 0 = "'é'.at(0)") ∧
    exampleEnvironment.completion {} ("x = f('(', 1); " ++ "'é'.at(0).le")
        ("x = f('(', 1); " ++ "'é'.at(0).le").utf8ByteSize =
      exampleEnvironment.completion {} "'é'.at(0).le" "'é'.at(0).le".utf8ByteSize := by
  have hp : splitChain "x = f('(', 1); " = .ok ⟨15, .topLevel, ⟨15, 15⟩, [], ""⟩ := by decide +kernel
  have he : splitChain "'é'.at(0).le" =
      .ok ⟨0, .literal "'é'", ⟨0, 4⟩, [⟨"at", some ⟨"0", ⟨8, 9⟩⟩, ⟨5, 10⟩⟩], "le"⟩ := by
    decide +kernel
  obtain ⟨hsplit, hsame, hcompletion⟩ := exampleEnvironment.completion_behind {} _ "'é'.at(0).le" _
    hp (by decide) (by decide +kernel)
  have hbehind := (hsplit _).2 ⟨_, he, rfl⟩
  have hfragment := (hsame _ _ hbehind he).2 0
  exact ⟨⟨_, hbehind, by decide, hfragment.trans (by decide +kernel)⟩, hcompletion⟩

end ScriptConsole.Environment
