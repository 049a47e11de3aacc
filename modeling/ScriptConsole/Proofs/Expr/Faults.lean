import ScriptConsole.Proofs.Chain.Nesting
import ScriptConsole.Proofs.Expr.Parsing

namespace ScriptConsole

/-- What an error names stands where the error points, among the tokens `ts` of a line. -/
inductive ParseError.Points (ts : List Token) : ParseError → Prop where
  /-- Nothing behind the parenthesis closes it. -/
  | unclosedParen {p : Token} {after : List Token} (hts : p :: after <:+ ts) (hp : p.kind = .lParen)
      (hopen : ∀ inside c, inside ++ [c] <+: after → c.kind = .rParen → ¬ Paired inside) :
      Points ts (.unclosedParen p.offset)
  /-- Nothing in front of the parenthesis opens what it closes. -/
  | unexpectedCloseParen {before : List Token} {c : Token} (hts : before ++ [c] <+: ts)
      (hc : c.kind = .rParen)
      (hclosed : ∀ p inside, p :: inside <:+ before → p.kind = .lParen → ¬ Paired inside) :
      Points ts (.unexpectedCloseParen c.offset)
  | unterminatedString {t : Token} (ht : t ∈ ts) (hk : t.kind = .unterminatedString) :
      Points ts (.unterminatedString t.offset)
  | unexpectedToken {t : Token} (ht : t ∈ ts) : Points ts (.unexpectedToken t.text t.offset)
  | unexpectedEnd : Points ts .unexpectedEnd
  | invalidLiteral (text : String) : Points ts (.invalidLiteral text)
  | missingMemberName : Points ts .missingMemberName
  | tooDeep (limit : Nat) : Points ts (.tooDeep limit)

theorem points_unexpectedToken (ts : List Token) (text : String) (offset : Nat) :
    (ParseError.unexpectedToken text offset).Points ts ↔
      ∃ t ∈ ts, t.text = text ∧ t.offset = offset := by
  constructor
  · intro h
    cases h with
    | @unexpectedToken t ht => exact ⟨t, ht, rfl, rfl⟩
  · intro h
    obtain ⟨t, ht, rfl, rfl⟩ := h
    exact .unexpectedToken ht

theorem Spells.subset {w : List Terminal} {ts rest : List Token} (h : Spells w ts rest) :
    rest ⊆ ts := by
  obtain ⟨used, rfl, _⟩ := h
  exact List.subset_append_right used rest

/-- Why the parsers of expressions fail on tokens of `ts`.  A literal is invalid because it cannot
be decoded. -/
inductive ParseError.Raised (ts : List Token) : ParseError → Prop where
  | unexpectedToken {t : Token} (ht : t ∈ ts) : Raised ts (.unexpected t)
  | unterminatedString {t : Token} (ht : t ∈ ts) (hk : t.kind = .unterminatedString) :
      Raised ts (.unterminatedString t.offset)
  | string {t : Token} (ht : t ∈ ts) (hk : t.kind = .string) (hnone : unquote t.text = none) :
      Raised ts (.invalidLiteral t.text)
  | integer {t : Token} (sign : String) (hsign : sign = "" ∨ sign = "-") (ht : t ∈ ts)
      (hk : t.kind = .integer) (hnone : integerValue? (sign ++ t.text) = none) :
      Raised ts (.invalidLiteral (sign ++ t.text))
  | unexpectedEnd : Raised ts .unexpectedEnd
  | tooDeep : Raised ts (.tooDeep maxDepth)

theorem ParseError.Raised.points {ts : List Token} {e : ParseError} (h : e.Raised ts) :
    e.Points ts := by
  cases h with
  | unexpectedToken ht => exact .unexpectedToken ht
  | unterminatedString ht hk => exact .unterminatedString ht hk
  | string _ _ _ => exact .invalidLiteral _
  | integer _ _ _ _ _ => exact .invalidLiteral _
  | unexpectedEnd => exact .unexpectedEnd
  | tooDeep => exact .tooDeep maxDepth

/-- Given tokens of `all`, a parser that fails has a reason among them, or at the end. -/
def Raises (all : List Token) (p : Parser Expr) : Prop :=
  ∀ ts, ts ⊆ all → ∀ e, p ts = .error e → e.Raised all

theorem integerLiteral_raises {all : List Token} {sign : String} (hsign : sign = "" ∨ sign = "-")
    {t : Token} (ht : t ∈ all) (hk : t.kind = .integer) {e : ParseError}
    (h : integerLiteral (sign ++ t.text) = .error e) : e.Raised all := by
  rw [integerLiteral] at h
  split at h
  · cases h
  · next hnone =>
    cases h
    exact .integer sign hsign ht hk hnone

section Raised
variable {all : List Token} {expr : Parser Expr} {d limit : Nat} (hderived : Derived expr d limit)
  (hexpr : Raises all expr)
include hderived hexpr

theorem argumentList_raises {ts : List Token} (hts : ts ⊆ all) {e : ParseError}
    (h : argumentList expr ts = .error e) : e.Raised all := by
  -- each further argument is read from fewer tokens
  induction hn : ts.length using Nat.strongRecOn generalizing ts with
  | ind n ih =>
    rw [argumentList] at h
    split at h
    · next hfail =>
      cases h
      exact hexpr ts hts e hfail
    · cases h
      exact .unexpectedEnd
    · next arg t rest hlt hread =>
      obtain ⟨_, hspells, _⟩ := hderived ts arg (t :: rest) ⟨hlt, hread⟩
      have hrest : t :: rest ⊆ all := List.Subset.trans hspells.subset hts
      rw [List.length_cons] at hlt
      split at h
      · cases h
      · split at h
        · next hmore =>
          cases h
          exact ih rest.length (by omega) (List.cons_subset.1 hrest).2 hmore rfl
        · cases h
      · cases h
        exact .unexpectedToken (hrest List.mem_cons_self)

theorem optionalArguments_raises {ts : List Token} (hts : ts ⊆ all) {e : ParseError}
    (h : optionalArguments expr ts = .error e) : e.Raised all := by
  cases ts with
  | nil => cases h
  | cons p rest =>
    rw [optionalArguments] at h
    split at h
    · rw [map_error_iff] at h
      have hrest : rest ⊆ all := (List.cons_subset.1 hts).2
      cases rest with
      | nil => exact argumentList_raises hderived hexpr hrest h
      | cons t rest =>
        rw [arguments] at h
        split at h
        · cases h
        · exact argumentList_raises hderived hexpr hrest h
    · cases h

theorem primary_raises : Raises all (primary expr) := by
  intro ts hts e h
  cases ts with
  | nil =>
    cases h
    exact .unexpectedEnd
  | cons t ts =>
    obtain ⟨ht, hrest⟩ := List.cons_subset.1 hts
    unfold primary at h
    dsimp only at h
    split at h
    · next hk =>
      split at h
      · cases h
      · next hnone =>
        cases h
        exact .string ht hk hnone
    · next hk =>
      have hfail : integerLiteral ("" ++ t.text) = .error e := by
        simpa using (map_error_iff _ _ _).1 h
      exact integerLiteral_raises (.inl rfl) ht hk hfail
    · split at h
      · cases h
        exact .unexpectedToken ht
      · split at h
        · next digits rest hminus =>
          exact integerLiteral_raises (.inr rfl) (List.cons_subset.1 hrest).1 hminus.2
            ((map_error_iff _ _ _).1 h)
        · cases h
          exact .unexpectedToken ht
    · split at h
      · cases h
      · exact optionalArguments_raises hderived hexpr hrest ((map_error_iff _ _ _).1 h)
    · split at h
      · next hfail =>
        cases h
        exact hexpr ts hrest e hfail
      · cases h
        exact .unexpectedEnd
      · next inner close rest hlt hread =>
        split at h
        · cases h
        · cases h
          obtain ⟨_, hspells, _⟩ := hderived ts inner (close :: rest) ⟨hlt, hread⟩
          exact .unexpectedToken (hrest (hspells.subset List.mem_cons_self))
    · next hk =>
      cases h
      exact .unterminatedString ht hk
    · cases h
      exact .unexpectedToken ht

theorem memberLink_raises (receiver : Expr) : Raises all (memberLink expr receiver) := by
  intro ts hts e h
  cases ts with
  | nil =>
    cases h
    exact .unexpectedEnd
  | cons member ts =>
    obtain ⟨hmember, hrest⟩ := List.cons_subset.1 hts
    rw [memberLink] at h
    split at h
    · exact optionalArguments_raises hderived hexpr hrest ((map_error_iff _ _ _).1 h)
    · cases h
      exact .unexpectedToken hmember

end Raised

theorem expression_derived_self (n : Nat) : Derived (expression n) (n - n) n :=
  expression_derived n n (Nat.le_refl n)

theorem memberLink_subset {n : Nat} {receiver next : Expr} {ts rest : List Token}
    (h : Reads (memberLink (expression n) receiver) ts next rest) : rest ⊆ ts := by
  obtain ⟨member, tail, args, rfl, _, _, hargs⟩ := (memberLink_reads _ _ _ _ _).1 h
  have hderived := expression_derived_self n
  obtain ⟨_, hspells, _⟩ := optionalArguments_derived hderived (Nat.sub_le n n) tail rest args hargs
  exact List.Subset.trans hspells.subset (List.subset_cons_self member tail)

theorem memberLinks_raises {all : List Token} (n : Nat)
    (hexpr : ∀ m, m < n → Raises all (expression m)) (receiver : Expr) {ts : List Token}
    (hts : ts ⊆ all) {e : ParseError} (h : memberLinks n receiver ts = .error e) :
    e.Raised all := by
  induction n generalizing receiver ts with
  | zero =>
    cases ts with
    | nil => cases h
    | cons t ts =>
      rw [memberLinks] at h
      split at h
      · cases h
        exact .tooDeep
      · cases h
  | succ n ih =>
    cases ts with
    | nil => cases h
    | cons t ts =>
      have hrest : ts ⊆ all := (List.cons_subset.1 hts).2
      rw [memberLinks] at h
      split at h
      · split at h
        · next hfail =>
          cases h
          have hlink := memberLink_raises (expression_derived_self n) (hexpr n (Nat.lt_succ_self n))
          exact hlink receiver ts hrest e hfail
        · next link hlink =>
          have hbehind : link.rest ⊆ ts := memberLink_subset ⟨link.shorter, hlink⟩
          exact ih (fun m hm => hexpr m (Nat.lt_succ_of_lt hm)) link.value
            (List.Subset.trans hbehind hrest) ((map_error_iff _ _ _).1 h)
      · cases h

theorem expression_raises {all : List Token} (n : Nat) : Raises all (expression n) := by
  induction n using Nat.strongRecOn with
  | ind n ih =>
    intro ts hts e h
    cases n with
    | zero =>
      rw [expression] at h
      cases h
      exact .tooDeep
    | succ n =>
      have hderived := expression_derived_self n
      rw [expression] at h
      split at h
      · next hfail =>
        cases h
        exact primary_raises hderived (ih n (Nat.lt_succ_self n)) ts hts e hfail
      · next first hfirst =>
        have hreads : Reads (primary (expression n)) ts first.value first.rest :=
          ⟨first.shorter, hfirst⟩
        obtain ⟨_, hspells, _⟩ := primary_derived hderived (Nat.sub_le n n) ts _ _ hreads
        exact memberLinks_raises n (fun m hm => ih m (Nat.lt_succ_of_lt hm)) first.value
          (List.Subset.trans hspells.subset hts) ((map_error_iff _ _ _).1 h)

theorem atEnd_raises {α : Type} {all ts : List Token} (hts : ts ⊆ all) (value : α) {e : ParseError}
    (h : atEnd value ts = .error e) : e.Raised all := by
  cases ts with
  | nil => cases h
  | cons t ts =>
    cases h
    exact .unexpectedToken (hts List.mem_cons_self)

theorem significantTokens_subset (source : String) : significantTokens source ⊆ tokenize source :=
  List.filter_sublist.subset

theorem expression_subset {n : Nat} {ts : List Token} (r : Parsed Expr ts)
    (h : expression n ts = .ok r) : r.rest ⊆ ts := by
  obtain ⟨_, hspells, _⟩ := expression_derived_self n ts r.value r.rest ⟨r.shorter, h⟩
  exact hspells.subset

theorem parseExpression_raised {source : String} {e : ParseError}
    (h : parseExpression source = .error e) : e.Raised (tokenize source) := by
  have hts := significantTokens_subset source
  rcases (bind_error_iff _ _ _).1 h with hfail | ⟨r, hread, hend⟩
  · exact expression_raises maxDepth _ hts e hfail
  · exact atEnd_raises (List.Subset.trans (expression_subset r hread) hts) r.value hend

theorem closingExpression_raises {all ts : List Token} (hts : ts ⊆ all) {e : ParseError}
    (h : closingExpression ts = .error e) : e.Raised all := by
  rcases (bind_error_iff _ _ _).1 h with hfail | ⟨r, hread, hend⟩
  · exact expression_raises maxDepth ts hts e hfail
  · have hrest : r.rest ⊆ all := List.Subset.trans (expression_subset r hread) hts
    split at hend
    · next t rest hcut =>
      rw [hcut] at hrest
      split at hend
      · exact atEnd_raises (List.cons_subset.1 hrest).2 r.value hend
      · exact atEnd_raises (hcut ▸ hrest) r.value hend
    · cases hend

theorem parseStatement_raised {source : String} {e : ParseError}
    (h : parseStatement source = .error e) : e.Raised (tokenize source) := by
  have hts := significantTokens_subset source
  unfold parseStatement at h
  split at h
  · next target sign rest hcut =>
    rw [hcut] at hts
    split at h
    · have hvalue : rest ⊆ tokenize source := (List.cons_subset.1 (List.cons_subset.1 hts).2).2
      exact closingExpression_raises hvalue ((map_error_iff _ _ _).1 h)
    · exact closingExpression_raises hts ((map_error_iff _ _ _).1 h)
  · exact closingExpression_raises hts ((map_error_iff _ _ _).1 h)

theorem parseExpression_points {source : String} {e : ParseError}
    (h : parseExpression source = .error e) : e.Points (tokenize source) :=
  (parseExpression_raised h).points

theorem parseStatement_points {source : String} {e : ParseError}
    (h : parseStatement source = .error e) : e.Points (tokenize source) :=
  (parseStatement_raised h).points

end ScriptConsole
