import ScriptConsole.Proofs.Expr.Writing

namespace ScriptConsole

/-- In a double-quoted string, quotes and backslashes stand behind a backslash. -/
def guardedChar (c : Char) : List Char := if c = '"' ∨ c = '\\' then ['\\', c] else [c]

def Literal.print : Literal → String
  | string text => String.ofList ('"' :: (text.toList.flatMap guardedChar ++ ['"']))
  | integer value => toString value.toInt
  | boolean true => "true"
  | boolean false => "false"
  | null => "null"

mutual

def Expr.print : Expr → String
  | .literal l => l.print
  | .name text => text
  | .call function args => function ++ "(" ++ Expr.printArgs args ++ ")"
  | .field receiver member => receiver.print ++ "." ++ member
  | .invoke receiver member args =>
    receiver.print ++ "." ++ member ++ "(" ++ Expr.printArgs args ++ ")"

/-- Arguments with commas between them. -/
def Expr.printArgs : List Expr → String
  | [] => ""
  | [arg] => arg.print
  | arg :: args => arg.print ++ "," ++ Expr.printArgs args

end

/-- Every name is an identifier, and one of the words that are literals only where a dot is in
front of it. -/
inductive Expr.WellNamed : Expr → Prop where
  | literal (l : Literal) : WellNamed (.literal l)
  | name (text : String) (hi : isIdentifier text = true) (hw : text ∉ ["true", "false", "null"]) :
      WellNamed (.name text)
  | call (function : String) (args : List Expr) (hi : isIdentifier function = true)
      (hw : function ∉ ["true", "false", "null"]) (hargs : ∀ arg ∈ args, arg.WellNamed) :
      WellNamed (.call function args)
  | field (receiver : Expr) (member : String) (hr : receiver.WellNamed)
      (hi : isIdentifier member = true) : WellNamed (.field receiver member)
  | invoke (receiver : Expr) (member : String) (args : List Expr) (hr : receiver.WellNamed)
      (hi : isIdentifier member = true) (hargs : ∀ arg ∈ args, arg.WellNamed) :
      WellNamed (.invoke receiver member args)

/-- How many member links follow the innermost receiver. -/
def Expr.linkCount : Expr → Nat
  | field receiver _ => receiver.linkCount + 1
  | invoke receiver _ _ => receiver.linkCount + 1
  | _ => 0

mutual

/-- The deepest level in an expression at level `d`.  What stands in front of its member links lies
at level `d + 1` and its `j`-th link at level `d + 1 + j`; the arguments of a call lie at the level
of the call. -/
def Expr.deepest (d : Nat) : Expr → Nat
  | .literal _ => d + 1
  | .name _ => d + 1
  | .call _ args => Expr.deepestOf (d + 1) args
  | .field receiver _ => max (receiver.deepest d) (d + 1 + (receiver.linkCount + 1))
  | .invoke receiver _ args =>
    max (receiver.deepest d) (Expr.deepestOf (d + 1 + (receiver.linkCount + 1)) args)

/-- The deepest level in arguments at level `d`, and `d` when there are none. -/
def Expr.deepestOf (d : Nat) : List Expr → Nat
  | [] => d
  | arg :: args => max (arg.deepest d) (Expr.deepestOf d args)

end

theorem unescape_guarded (cs : List Char) : unescape (cs.flatMap guardedChar) = some cs := by
  induction cs with
  | nil => rfl
  | cons c cs ih =>
    rw [List.flatMap_cons, guardedChar]
    split
    · next h =>
      have hc : escaped c = c := by rcases h with rfl | rfl <;> rfl
      simp [unescape, ih, hc]
    · next h =>
      have hne : c ≠ '\\' := fun hc => h (.inr hc)
      rw [List.singleton_append, unescape_plain c _ hne, ih]
      rfl

theorem escapedText_guarded (cs : List Char) : EscapedText (cs.flatMap guardedChar) := by
  induction cs with
  | nil => exact .nil
  | cons c cs ih =>
    rw [List.flatMap_cons, guardedChar]
    split
    · next h =>
      have hc : c ≠ '\n' := by rcases h with rfl | rfl <;> decide
      exact .pair c _ hc ih
    · next h => exact .plain c _ (fun hc => h (.inl hc)) (fun hc => h (.inr hc)) ih

theorem digitsValue_repr (n : Nat) : digitsValue? n.repr.toList = some n := by
  have hne : n.repr.toList ≠ [] := by simp
  have hdigits : n.repr.toList.all Char.isDigit = true := by
    rw [Nat.toList_repr, List.all_eq_true]
    exact fun c hc => Nat.isDigit_of_mem_toDigits (by decide) (by decide) hc
  have hvalue : n.repr.toList.foldl (fun n d => 10 * n + (d.toNat - '0'.toNat)) 0 = n := by
    rw [Nat.toList_repr, ← Nat.ofDigitChars_eq_foldl, Nat.ofDigitChars_ten_toDigits]
  rw [digitsValue?, hvalue, hdigits]
  simp

theorem int64_toInt (v : Int64) : int64? v.toInt = some v := by
  rw [int64?, if_pos ⟨v.minValue_le_toInt, v.toInt_le⟩, Int64.ofInt_toInt]

theorem integerValue_repr (n : Nat) : integerValue? n.repr = int64? n := by
  have hminus : ∀ ds, n.repr.toList ≠ '-' :: ds := by
    intro ds h
    have hmem : '-' ∈ Nat.toDigits 10 n := by rw [← Nat.toList_repr, h]; exact List.mem_cons_self
    have hdigit := Nat.isDigit_of_mem_toDigits (by decide) (by decide) hmem
    cases hdigit
  rw [integerValue?]
  split
  · next ds h => exact absurd h (hminus ds)
  · rw [digitsValue_repr, Option.bind_some]

theorem integerValue_minus_repr (n : Nat) : integerValue? ("-" ++ n.repr) = int64? (-n) := by
  have htext : ("-" ++ n.repr).toList = '-' :: n.repr.toList := by simp
  rw [integerValue?, htext]
  simp only [digitsValue_repr, Option.bind_some]

/-- The terminals are formed, and side by side they are the text. -/
def Writes (w : List Terminal) (text : String) : Prop :=
  (∀ a ∈ w, a.Formed) ∧ String.ofList (written w) = text

theorem writes_one (a : Terminal) (text : String) (ha : a.Formed)
    (h : String.ofList a.text = text) : Writes [a] text := by
  refine ⟨by simpa using ha, ?_⟩
  rw [written_cons, written_nil, List.append_nil, h]

theorem writes_append (v w : List Terminal) (s t : String) (hv : Writes v s) (hw : Writes w t) :
    Writes (v ++ w) (s ++ t) := by
  obtain ⟨hvf, rfl⟩ := hv
  obtain ⟨hwf, rfl⟩ := hw
  refine ⟨List.forall_mem_append.2 ⟨hvf, hwf⟩, ?_⟩
  rw [written_append, String.ofList_append]

theorem writes_nil : Writes [] "" := ⟨by simp, rfl⟩

theorem writes_dot : Writes [.dot] "." := writes_one _ _ Terminal.formed_dot rfl

theorem writes_comma : Writes [.comma] "," := writes_one _ _ Terminal.formed_comma rfl

theorem writes_lParen : Writes [.lParen] "(" := writes_one _ _ Terminal.formed_lParen rfl

theorem writes_rParen : Writes [.rParen] ")" := writes_one _ _ Terminal.formed_rParen rfl

theorem writes_ident (name : String) (h : isIdentifier name = true) :
    Writes [.ident name] name :=
  writes_one _ _ ((isIdentifier_iff_form name).1 h) String.ofList_toList

theorem writes_integer (n : Nat) : Writes [.integer n.repr] n.repr := by
  refine writes_one _ _ ?_ String.ofList_toList
  refine .integer _ (by simp [Terminal.text]) ?_
  rw [Terminal.text, Nat.toList_repr]
  exact fun c hc => Nat.isDigit_of_mem_toDigits (by decide) (by decide) hc

theorem exists_literal_tree (l : Literal) :
    ∃ p : PrimaryTree, p.expr = .literal l ∧ Writes p.yield l.print ∧ ∀ d, p.deepest d = d := by
  cases l with
  | string text =>
    have hu : unquote (Literal.string text).print = some text := by
      rw [Literal.print, ← List.cons_append, unquote_escaped, unescape_guarded]
      simp
    refine ⟨.string _ text hu, rfl, writes_one _ _ ?_ String.ofList_toList, fun d => rfl⟩
    rw [Terminal.Formed, Terminal.text, Literal.print, String.toList_ofList]
    exact .escaped _ (escapedText_guarded _)
  | integer v =>
    have hv := int64_toInt v
    rw [Literal.print, Int.toString_eq_repr, Int.repr_eq_if]
    split
    · next hpos =>
      have hi : integerValue? v.toInt.toNat.repr = some v := by
        rw [integerValue_repr, Int.toNat_of_nonneg hpos, hv]
      exact ⟨.integer _ v hi, rfl, writes_integer _, fun d => rfl⟩
    · next hneg =>
      have hi : integerValue? ("-" ++ (-v.toInt).toNat.repr) = some v := by
        rw [integerValue_minus_repr, Int.toNat_of_nonneg (by omega), Int.neg_neg, hv]
      have hminus : Writes [.minus] "-" := writes_one _ _ Terminal.formed_minus rfl
      exact ⟨.negative _ v hi, rfl, writes_append _ _ _ _ hminus (writes_integer _), fun d => rfl⟩
  | boolean b =>
    cases b with
    | true =>
      exact ⟨.word "true" (.boolean true) rfl, rfl, writes_ident _ (by decide), fun d => rfl⟩
    | false =>
      exact ⟨.word "false" (.boolean false) rfl, rfl, writes_ident _ (by decide), fun d => rfl⟩
  | null => exact ⟨.word "null" .null rfl, rfl, writes_ident _ (by decide), fun d => rfl⟩

def LinksTree.length : LinksTree → Nat
  | .nil => 0
  | .cons _ _ links => links.length + 1

/-- One more link behind the others. -/
def LinksTree.snoc : LinksTree → String → CallTree → LinksTree
  | .nil, member, call => .cons member call .nil
  | .cons first call' links, member, call => .cons first call' (links.snoc member call)

section Snoc
variable (member : String) (call : CallTree)

theorem snoc_length (t : LinksTree) : (t.snoc member call).length = t.length + 1 := by
  cases t with
  | nil => rfl
  | cons first call' links => simp [LinksTree.snoc, LinksTree.length, snoc_length links]
termination_by structural t

theorem snoc_yield (t : LinksTree) :
    (t.snoc member call).yield = t.yield ++ .dot :: .ident member :: call.yield := by
  cases t with
  | nil => simp [LinksTree.snoc, LinksTree.yield]
  | cons first call' links => simp [LinksTree.snoc, LinksTree.yield, snoc_yield links]
termination_by structural t

theorem snoc_onto (t : LinksTree) (receiver : Expr) :
    (t.snoc member call).onto receiver = (t.onto receiver).member member call.exprs := by
  cases t with
  | nil => rfl
  | cons first call' links => exact snoc_onto links _
termination_by structural t

theorem snoc_deepest (t : LinksTree) (d : Nat) :
    (t.snoc member call).deepest d =
      max (t.deepest d) (max (call.deepest (d + t.length + 1)) (d + t.length + 1)) := by
  cases t with
  | nil =>
    simp only [LinksTree.snoc, LinksTree.deepest, LinksTree.length, Nat.add_zero]
    omega
  | cons first call' links =>
    have hlinks := snoc_deepest links (d + 1)
    have hlevel : d + 1 + links.length + 1 = d + (links.length + 1) + 1 := by omega
    rw [hlevel] at hlinks
    simp only [LinksTree.snoc, LinksTree.deepest, LinksTree.length, hlinks]
    omega
termination_by structural t

end Snoc

/-- The links behind `first` derive the expression from the terminals of its text, on the same
levels. -/
structure Prints (first : PrimaryTree) (links : LinksTree) (e : Expr) : Prop where
  expr : links.onto first.expr = e
  writes : Writes (first.yield ++ links.yield) e.print
  length : links.length = e.linkCount
  deepest : ∀ d, max (first.deepest (d + 1)) (links.deepest (d + 1)) = e.deepest d

/-- Some tree derives the expression from its text. -/
def Expr.Printable (e : Expr) : Prop := ∃ first links, Prints first links e

section Calls

/-- The arguments of a call with their parentheses, when there are any. -/
def Expr.printCall : Option (List Expr) → String
  | none => ""
  | some args => "(" ++ Expr.printArgs args ++ ")"

def Expr.deepestCall (d : Nat) : Option (List Expr) → Nat
  | none => d
  | some args => Expr.deepestOf d args

theorem print_named (text : String) (args : Option (List Expr)) :
    (Expr.named text args).print = text ++ Expr.printCall args := by
  cases args <;> simp [Expr.named, Expr.print, Expr.printCall, String.append_assoc]

theorem print_member (e : Expr) (member : String) (args : Option (List Expr)) :
    (e.member member args).print = e.print ++ ("." ++ (member ++ Expr.printCall args)) := by
  cases args <;> simp [Expr.member, Expr.print, Expr.printCall, String.append_assoc]

theorem deepest_named (text : String) (args : Option (List Expr)) (d : Nat) :
    (Expr.named text args).deepest d = Expr.deepestCall (d + 1) args := by
  cases args <;> rfl

theorem deepest_member (e : Expr) (member : String) (args : Option (List Expr)) (d : Nat) :
    (e.member member args).deepest d =
      max (e.deepest d) (Expr.deepestCall (d + 1 + (e.linkCount + 1)) args) := by
  cases args <;> rfl

theorem linkCount_named (text : String) (args : Option (List Expr)) :
    (Expr.named text args).linkCount = 0 := by
  cases args <;> rfl

theorem linkCount_member (e : Expr) (member : String) (args : Option (List Expr)) :
    (e.member member args).linkCount = e.linkCount + 1 := by
  cases args <;> rfl

theorem exists_args_tree (arg : Expr) (args : List Expr)
    (h : ∀ e ∈ arg :: args, e.Printable) :
    ∃ list : ArgsTree, list.exprs = arg :: args ∧
      Writes list.yield (Expr.printArgs (arg :: args)) ∧
      ∀ d, max d (list.deepest d) = Expr.deepestOf d (arg :: args) := by
  induction args generalizing arg with
  | nil =>
    obtain ⟨first, links, hp⟩ := h arg List.mem_cons_self
    refine ⟨.one (.mk first links), by rw [ArgsTree.exprs, ExprTree.expr, hp.expr], hp.writes, ?_⟩
    intro d
    rw [ArgsTree.deepest, ExprTree.deepest, hp.deepest]
    exact Nat.max_comm _ _
  | cons next args ih =>
    obtain ⟨harg, hargs⟩ := List.forall_mem_cons.1 h
    obtain ⟨first, links, hp⟩ := harg
    obtain ⟨list, hexprs, hwrites, hdeepest⟩ := ih next hargs
    refine ⟨.cons (.mk first links) list, ?_, ?_, ?_⟩
    · rw [ArgsTree.exprs, ExprTree.expr, hp.expr, hexprs]
    · have hmore := writes_append _ _ _ _ writes_comma hwrites
      rw [Expr.printArgs, String.append_assoc]
      · exact writes_append _ _ _ _ hp.writes hmore
      · simp
    · intro d
      rw [ArgsTree.deepest, ExprTree.deepest, hp.deepest, Expr.deepestOf, ← hdeepest]
      omega

theorem exists_call_tree (args : Option (List Expr))
    (h : ∀ list ∈ args, ∀ e ∈ list, e.Printable) :
    ∃ call : CallTree, call.exprs = args ∧ Writes call.yield (Expr.printCall args) ∧
      ∀ d, max (call.deepest d) d = Expr.deepestCall d args := by
  match args with
  | none => exact ⟨.absent, rfl, writes_nil, fun d => Nat.max_self d⟩
  | some [] =>
    exact ⟨.empty, rfl, writes_append _ _ _ _ writes_lParen writes_rParen, fun d => Nat.max_self d⟩
  | some (arg :: args) =>
    obtain ⟨list, hexprs, hwrites, hdeepest⟩ := exists_args_tree arg args (h _ rfl)
    refine ⟨.args list, by rw [CallTree.exprs, hexprs], ?_, ?_⟩
    · have hclosed := writes_append _ _ _ _ hwrites writes_rParen
      rw [Expr.printCall, String.append_assoc]
      exact writes_append _ _ _ _ writes_lParen hclosed
    · intro d
      rw [CallTree.deepest, Nat.max_comm]
      exact hdeepest d

theorem printable_named (text : String) (args : Option (List Expr))
    (hi : isIdentifier text = true) (hw : text ∉ ["true", "false", "null"])
    (h : ∀ list ∈ args, ∀ e ∈ list, e.Printable) : (Expr.named text args).Printable := by
  obtain ⟨call, hexprs, hwrites, hdeepest⟩ := exists_call_tree args h
  refine ⟨.named text (literalWord_of_not_mem text hw) call, .nil, ?_, ?_, ?_, ?_⟩
  · rw [LinksTree.onto, PrimaryTree.expr, hexprs]
  · rw [print_named, LinksTree.yield, List.append_nil]
    exact writes_append _ _ _ _ (writes_ident text hi) hwrites
  · rw [linkCount_named, LinksTree.length]
  · intro d
    rw [deepest_named]
    exact hdeepest (d + 1)

theorem printable_member (receiver : Expr) (member : String) (args : Option (List Expr))
    (hr : receiver.Printable) (hi : isIdentifier member = true)
    (h : ∀ list ∈ args, ∀ e ∈ list, e.Printable) : (receiver.member member args).Printable := by
  obtain ⟨first, links, hp⟩ := hr
  obtain ⟨call, hexprs, hwrites, hdeepest⟩ := exists_call_tree args h
  refine ⟨first, links.snoc member call, ?_, ?_, ?_, ?_⟩
  · rw [snoc_onto, hp.expr, hexprs]
  · have hcall := writes_append _ _ _ _ (writes_ident member hi) hwrites
    have hlink := writes_append _ _ _ _ writes_dot hcall
    rw [print_member, snoc_yield, ← List.append_assoc]
    exact writes_append _ _ _ _ hp.writes hlink
  · rw [snoc_length, linkCount_member, hp.length]
  · intro d
    have hlevel : d + 1 + links.length + 1 = d + 1 + (links.length + 1) := rfl
    rw [deepest_member, ← hp.deepest, snoc_deepest, hlevel, hdeepest, hp.length, Nat.max_assoc]

end Calls

theorem printable_of_wellNamed (e : Expr) (h : e.WellNamed) : e.Printable := by
  induction h with
  | literal l =>
    obtain ⟨p, hexpr, hwrites, hdeepest⟩ := exists_literal_tree l
    refine ⟨p, .nil, hexpr, ?_, rfl, ?_⟩
    · rw [LinksTree.yield, List.append_nil]
      exact hwrites
    · intro d
      rw [hdeepest]
      exact Nat.max_self _
  | name text hi hw => exact printable_named text none hi hw (by simp)
  | call function args hi hw _ ih =>
    exact printable_named function (some args) hi hw (by simpa using ih)
  | field receiver member _ hi ih => exact printable_member receiver member none ih hi (by simp)
  | invoke receiver member args _ hi _ ihr ih =>
    exact printable_member receiver member (some args) ihr hi (by simpa using ih)

theorem parseExpression_printable (e : Expr) (h : e.Printable) :
    parseExpression e.print = .ok e ↔ e.deepest 0 ≤ maxDepth := by
  obtain ⟨first, links, hp⟩ := h
  obtain ⟨hformed, htext⟩ := hp.writes
  have hparse := parseExpression_written (.mk first links) hformed
  rw [ExprTree.yield, htext, ExprTree.expr, hp.expr, ExprTree.deepest, hp.deepest] at hparse
  exact hparse

/-- An expression whose names are identifiers parses as itself when it has been printed, exactly
when it stays within the depth limit. -/
theorem parseExpression_print (e : Expr) (h : e.WellNamed) :
    parseExpression e.print = .ok e ↔ e.deepest 0 ≤ 128 :=
  parseExpression_printable e (printable_of_wellNamed e h)

/-- Quotes and backslashes, the least integer, a member named like a literal, and a call in the
arguments of a call. -/
theorem parseExpression_print_nested :
    let e : Expr := .invoke (.literal (.string "a\"\\")) "at"
      [.literal (.integer Int64.minValue), .field (.name "x") "true", .call "f" []]
    e.WellNamed ∧ e.deepest 0 ≤ 128 ∧
      e.print = "\"a\\\"\\\\\".at(-9223372036854775808,x.true,f())" ∧
      parseExpression e.print = .ok e := by
  intro e
  have hx : (Expr.name "x").WellNamed := .name "x" (by decide) (by decide)
  have hf : (Expr.call "f" []).WellNamed := .call "f" [] (by decide) (by decide) (by simp)
  have hwell : e.WellNamed := by
    refine .invoke _ _ _ (.literal _) (by decide) ?_
    simpa using ⟨.literal _, .field _ _ hx (by decide), hf⟩
  have hdeep : e.deepest 0 ≤ 128 := by decide
  exact ⟨hwell, hdeep, by decide +kernel, (parseExpression_print e hwell).2 hdeep⟩

end ScriptConsole
