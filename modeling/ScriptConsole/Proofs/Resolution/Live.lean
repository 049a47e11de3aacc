import ScriptConsole.Evaluation.Interpreter
import ScriptConsole.Proofs.Chain.Spine
import ScriptConsole.Resolution.Chain

namespace ScriptConsole

/-- The environment in which calls are run against the registry. -/
def Registry.live (r : Registry) (s : Scope) : Environment := ⟨s, r.catalog, r.interpret⟩

section Live
variable (r : Registry) (s : Scope)

theorem evalExpr_ok (e : Expr) (v : Value) :
    r.evalExpr s e = .ok v ↔ r.denote s e = .ok (.value v) := by
  rw [Registry.evalExpr, bind_ok_iff]
  constructor
  · intro h
    obtain ⟨referent, he, hv⟩ := h
    cases referent with
    | value w =>
      cases hv
      exact he
    | type name | package path => cases hv
  · intro he
    exact ⟨.value v, he, rfl⟩

theorem interpret_ok (source : String) (v : Value) :
    r.interpret s source = .ok v ↔
      ∃ e, parseExpression source = .ok e ∧ r.denote s e = .ok (.value v) := by
  unfold Registry.interpret
  split
  · next err hp =>
    constructor
    · intro h
      cases h
    · intro h
      obtain ⟨e, he, _⟩ := h
      cases hp.symm.trans he
  · next e hp =>
    rw [evalExpr_ok]
    constructor
    · intro h
      exact ⟨e, hp, h⟩
    · intro h
      obtain ⟨e', he, h⟩ := h
      cases hp.symm.trans he
      exact h

theorem denote_field (e : Expr) (name : String) (x : Referent) :
    r.denote s (.field e name) = .ok x ↔
      ∃ receiver, r.denote s e = .ok receiver ∧ r.readMember receiver name = .ok x := by
  rw [Registry.denote, bind_ok_iff]

theorem denote_invoke (e : Expr) (name : String) (args : List Expr) (x : Referent) :
    r.denote s (.invoke e name args) = .ok x ↔
      ∃ receiver vs v, r.denote s e = .ok receiver ∧ r.denoteValues s args = .ok vs ∧
        r.callMember receiver name vs = .ok v ∧ x = .value v := by
  rw [Registry.denote, bind_ok_iff]
  constructor
  · intro h
    obtain ⟨receiver, he, h⟩ := h
    obtain ⟨vs, hvs, h⟩ := (bind_ok_iff _ _ _).1 h
    obtain ⟨v, hv, h⟩ := (bind_ok_iff _ _ _).1 h
    cases h
    exact ⟨receiver, vs, v, he, hvs, hv, rfl⟩
  · intro h
    obtain ⟨receiver, vs, v, he, hvs, hv, rfl⟩ := h
    exact ⟨receiver, he, (bind_ok_iff _ _ _).2 ⟨vs, hvs, (bind_ok_iff _ _ _).2 ⟨v, hv, rfl⟩⟩⟩

/-- What has a denotation has receivers with one. -/
theorem grows_denote (source : String) (e last : Expr) (segs : List Segment)
    (h : Grows source e segs last) (x : Referent) (hx : r.denote s last = .ok x) :
    ∃ y, r.denote s e = .ok y := by
  induction h with
  | nil source e _ => exact ⟨x, hx⟩
  | cons source e seg args segs last _ _ _ ih =>
    obtain ⟨y, hy⟩ := ih hx
    cases args with
    | none =>
      obtain ⟨receiver, he, _⟩ := (denote_field r s e seg.name y).1 hy
      exact ⟨receiver, he⟩
    | some args =>
      obtain ⟨receiver, _, _, he, _⟩ := (denote_invoke r s e seg.name args y).1 hy
      exact ⟨receiver, he⟩

theorem signature_field (type name : String) (sig : Signature)
    (h : r.signature type name = some sig) (hk : sig.kind = .field) :
    r.overloads type name = [] ∧ ∃ f, r.field? type name = some f := by
  unfold Registry.signature at h
  split at h
  · next hnone =>
    obtain ⟨f, hf, _⟩ := Option.map_eq_some_iff.1 h
    exact ⟨hnone, f, hf⟩
  · cases h
    cases hk

theorem signature_field_of (type name : String) (f : Field) (ho : r.overloads type name = [])
    (hf : r.field? type name = some f) :
    r.signature type name = some ⟨.field, [f.type]⟩ := by
  rw [Registry.signature, ho, hf]
  rfl

theorem signature_method_of (type name : String) (ho : r.overloads type name ≠ []) :
    ∃ types, r.signature type name = some ⟨.method, types⟩ := by
  unfold Registry.signature
  split
  · next hnone => exact (ho hnone).elim
  · exact ⟨_, rfl⟩

theorem overloads_of_select (type name : String) (count : Nat) (m : Method)
    (h : r.selectOverload type name count = .ok m) : r.overloads type name ≠ [] := by
  intro hnone
  rw [Registry.selectOverload, hnone] at h
  cases h

theorem ofValue_value (v w : Value) (type : String) :
    Reference.ofValue v = .value w type ↔ v = w ∧ v.type? = some type ∧ type ≠ TypeName.void := by
  unfold Reference.ofValue
  split
  · next hnone =>
    constructor
    · intro h
      cases h
    · intro h
      obtain ⟨_, ht, _⟩ := h
      cases hnone.symm.trans ht
  · next t ht =>
    split
    · next hvoid =>
      constructor
      · intro h
        cases h
      · intro h
        obtain ⟨_, ht', hne⟩ := h
        cases ht.symm.trans ht'
        exact (hne hvoid).elim
    · next hvoid =>
      constructor
      · intro h
        cases h
        exact ⟨rfl, ht, hvoid⟩
      · intro h
        obtain ⟨rfl, ht', _⟩ := h
        cases ht.symm.trans ht'
        rfl

theorem resolveHead_name (env : Environment) (name : String) (x : Referent)
    (h : env.scope.resolve env.catalog name = some x) :
    env.resolveHead (.name name) = x.toReference := by
  simp [Environment.resolveHead, h]

theorem declared_ne_value (found : List Signature) (v : Value) (type : String) :
    Reference.declared found ≠ .value v type := by
  unfold Reference.declared Reference.ofTypes
  split <;> nofun

theorem ofOutcome_value (found : List Signature) (outcome : Except EvalError Value) (v : Value)
    (type : String) :
    Environment.ofOutcome found outcome = .value v type ↔
      outcome = .ok v ∧ v.type? = some type ∧ type ≠ TypeName.void := by
  unfold Environment.ofOutcome
  split
  · constructor
    · nofun
    · intro h
      obtain ⟨hv, ht, hne⟩ := h
      cases hv
      cases ht
      exact (hne rfl).elim
  · constructor
    · intro h
      exact (declared_ne_value found v type h).elim
    · intro h
      obtain ⟨hv, ht, _⟩ := h
      cases hv
      cases ht
  · rw [ofValue_value]
    constructor
    · intro h
      obtain ⟨rfl, ht, hne⟩ := h
      exact ⟨rfl, ht, hne⟩
    · intro h
      obtain ⟨hv, ht, hne⟩ := h
      cases hv
      exact ⟨rfl, ht, hne⟩
  · constructor
    · intro h
      exact (declared_ne_value found v type h).elim
    · intro h
      obtain ⟨hv, _⟩ := h
      cases hv
  · constructor
    · nofun
    · intro h
      obtain ⟨hv, _⟩ := h
      cases hv

/-- A reference to a value stands for an expression that denotes this value. -/
def Stands (current : Reference) (e : Expr) : Prop :=
  ∀ v type, current = .value v type → r.denote s e = .ok (.value v) ∧ v.type? = some type

theorem stands_ofValue (e : Expr) (v : Value) (h : r.denote s e = .ok (.value v)) :
    Stands r s (.ofValue v) e := by
  intro w type hw
  obtain ⟨rfl, ht, _⟩ := (ofValue_value v w type).1 hw
  exact ⟨h, ht⟩

theorem stands_declared (found : List Signature) (e : Expr) : Stands r s (.declared found) e :=
  fun v type h => (declared_ne_value found v type h).elim

theorem decoded_literalValue? (source : String) (l : Literal) (h : decoded? source = some l) :
    literalValue? source = some l.toValue := by
  cases hu : unquote source with
  | some text =>
    simp only [decoded?, hu, Option.some.injEq] at h
    subst h
    simp only [literalValue?, hu]
    rfl
  | none =>
    simp only [decoded?, hu] at h
    obtain ⟨n, hn, rfl⟩ := Option.map_eq_some_iff.1 h
    simp only [literalValue?, hu, hn]
    rfl

/-- The words that are literals and no names. -/
def literalWords : List String := ["true", "false", "null"]

/-- A head other than the literal words refers to what it denotes. -/
theorem resolveHead_denote (head : Head) (base : Expr) (hbase : head.expr? = some base)
    (hword : ∀ w ∈ literalWords, head ≠ .name w) :
    (∃ x, r.denote s base = .ok x ∧ (r.live s).resolveHead head = x.toReference) ∨
      (∀ x, r.denote s base ≠ .ok x) ∧ (r.live s).resolveHead head = .unresolved := by
  cases head with
  | topLevel => cases hbase
  | name text =>
    have hnone := literalWord_of_not_mem text fun h => hword text h rfl
    rw [Head.expr?, hnone] at hbase
    cases hbase
    cases hx : s.resolve r.catalog text with
    | none =>
      right
      simp [Environment.resolveHead, Registry.live, Registry.denote, hx]
    | some x =>
      left
      refine ⟨x, ?_, ?_⟩
      · simp [Registry.denote, hx]
      · simp [Environment.resolveHead, Registry.live, hx]
  | literal source =>
    obtain ⟨l, hl, rfl⟩ := Option.map_eq_some_iff.1 hbase
    left
    refine ⟨.value l.toValue, rfl, ?_⟩
    simp [Environment.resolveHead, decoded_literalValue? source l hl, Referent.toReference]

theorem head_stands (head : Head) (base : Expr) (hbase : head.expr? = some base)
    (hword : ∀ w ∈ literalWords, head ≠ .name w) :
    Stands r s ((r.live s).resolveHead head) base := by
  intro v type hv
  obtain ⟨x, hx, href⟩ | ⟨_, hnone⟩ := resolveHead_denote r s head base hbase hword
  · rw [href] at hv
    cases x with
    | value w => exact stands_ofValue r s base w hx v type hv
    | type name | package path => cases hv
  · cases hnone.symm.trans hv

theorem followField_stands (current : Reference) (e : Expr) (name : String)
    (h : Stands r s current e) :
    Stands r s ((r.live s).followField current name) (.field e name) := by
  cases current with
  | topLevel | unresolved => nofun
  | static type | union types => exact stands_declared r s _ _
  | package path =>
    intro v type hv
    simp only [Environment.followField] at hv
    split at hv
    · cases hv
    · split at hv <;> cases hv
  | value w type =>
    obtain ⟨hw, ht⟩ := h w type rfl
    simp only [Environment.followField]
    split
    · exact stands_declared r s _ _
    · next stored hs =>
      split
      · next hguard =>
        -- a declared field that no method hides is what the interpreter reads
        obtain ⟨_, hany⟩ := Bool.and_eq_true_iff.1 hguard
        obtain ⟨sig, hmem, hk⟩ := List.any_eq_true.1 hany
        obtain ⟨type', htype', hsig⟩ := List.mem_filterMap.1 hmem
        obtain rfl := List.mem_singleton.1 htype'
        obtain ⟨_, f, hf⟩ := signature_field r type' name sig hsig (by simpa using hk)
        refine stands_ofValue r s _ stored ((denote_field r s e name _).2 ⟨.value w, hw, ?_⟩)
        simp [Registry.readMember, ht, hf, hs]
      · exact stands_declared r s _ _

theorem followCall_stands (current : Reference) (e : Expr) (name source : String)
    (hparse : parseExpression source = .ok e) :
    Stands r s ((r.live s).followCall current name source).reference e := by
  intro v type hv
  unfold Environment.followCall at hv
  split at hv
  · cases hv
  · obtain ⟨hval, ht, _⟩ := (ofOutcome_value _ _ v type).1 hv
    obtain ⟨e', he, hd⟩ := (interpret_ok r s source v).1 hval
    cases hparse.symm.trans he
    exact ⟨hd, ht⟩

/-- Every value that the resolver finds behind a source is the value of the grown source. -/
theorem follow_stands (current : Reference) (source : String) (e last : Expr)
    (segs : List Segment) (hgrows : Grows source e segs last) (h : Stands r s current e) :
    Stands r s ((r.live s).follow current source segs).reference last := by
  induction hgrows generalizing current with
  | nil source e _ => exact h
  | cons source e seg args segs last _ hargs hrest ih =>
    rw [Environment.follow]
    split
    · nofun
    · refine ih _ ?_
      unfold Environment.step
      cases args with
      | none =>
        rw [if_neg (by simp [← hargs])]
        exact followField_stands r s current e seg.name h
      | some args =>
        rw [if_pos (by simp [← hargs])]
        exact followCall_stands r s current _ seg.name _ (grows_source _ _ _ _ hrest)

end Live

theorem last_fragment_grows (line : String) (chain : AccessChain) (e : Expr)
    (hsplit : splitChain line = .ok chain) (hhead : chain.head ≠ .topLevel)
    (he : parseExpression (chain.fragment (chain.segments.length - 1)) = .ok e) :
    ∃ base, chain.head.expr? = some base ∧ Grows chain.head.source base chain.segments e := by
  obtain ⟨l⟩ := splitChain_layout line chain hsplit hhead
  rw [fragment_last] at he
  have hgrows := front_grows line chain l _ e he
  rwa [List.take_length] at hgrows

/-- A value found in front of the name being typed is what the interpreter makes of the source in
front of it, and its type is the dynamic type of that value. -/
theorem resolve_value_interpreted (r : Registry) (s : Scope) (line : String) (chain : AccessChain)
    (e : Expr) (v : Value) (type : String) (hsplit : splitChain line = .ok chain)
    (hvalue : ((r.live s).resolve chain).reference = .value v type)
    (hparse : parseExpression (chain.fragment (chain.segments.length - 1)) = .ok e)
    (hword : ∀ w ∈ ["true", "false", "null"], chain.head ≠ .name w) :
    r.interpret s (chain.fragment (chain.segments.length - 1)) = .ok v ∧ v.type? = some type := by
  have hhead : chain.head ≠ .topLevel := by
    intro htop
    rw [Environment.resolve, splitChain_topLevel line chain hsplit htop, htop] at hvalue
    cases hvalue
  obtain ⟨base, hbase, hgrows⟩ := last_fragment_grows line chain e hsplit hhead hparse
  have hstands := follow_stands r s _ _ base e _ hgrows (head_stands r s _ base hbase hword)
  obtain ⟨hd, ht⟩ := hstands v type hvalue
  exact ⟨(interpret_ok r s _ v).2 ⟨e, hparse, hd⟩, ht⟩

/-- Boxes have a field that a method hides, one that is not hidden, and a method that runs.  The
other class goes by the name that stands for no value. -/
def boxRegistry : Registry where
  classes := [
    { name := "p.Box"
      methods := [⟨"item", "p.Box", .exact 0, false, none⟩,
        ⟨"self", "p.Box", .exact 0, false, some fun box _ => .ok box⟩]
      fields := [⟨"item", "p.Box", false⟩, ⟨"label", TypeName.string, false⟩] },
    { name := TypeName.void
      methods := [⟨"go", TypeName.string, .exact 0, false, some fun _ _ => .ok (.string "x")⟩] }]
  packages := ["p"]

def boxScope : Scope where
  bindings := [("b", .object "p.Box" [("item", .object "p.Box" [("label", .string "tag")])]),
    ("u", .void)]
  importedClasses := []
  importedPackages := []
  keywords := consoleKeywords
  roots := []

def boxChain : AccessChain where
  start := 0
  head := .name "b"
  headSpan := ⟨0, 1⟩
  segments := [⟨"item", none, ⟨2, 6⟩⟩, ⟨"self", some ⟨"", ⟨12, 12⟩⟩, ⟨7, 13⟩⟩,
    ⟨"label", none, ⟨14, 19⟩⟩]
  stem := ""

theorem boxChain_split : splitChain "b.item.self().label." = .ok boxChain := by decide +kernel

theorem resolve_value_interpreted_label :
    ((boxRegistry.live boxScope).resolve boxChain).reference =
        .value (.string "tag") TypeName.string ∧
      boxRegistry.interpret boxScope "b.item.self().label" = .ok (.string "tag") ∧
      (Value.string "tag").type? = some TypeName.string := by
  have hvalue : ((boxRegistry.live boxScope).resolve boxChain).reference =
      .value (.string "tag") TypeName.string := by
    with_unfolding_all rfl
  have hparse : parseExpression "b.item.self().label" =
      .ok (.field (.invoke (.field (.name "b") "item") "self" []) "label") := by
    with_unfolding_all rfl
  exact ⟨hvalue, resolve_value_interpreted boxRegistry boxScope _ boxChain _ _ _ boxChain_split
    hvalue hparse (by decide)⟩

end ScriptConsole
