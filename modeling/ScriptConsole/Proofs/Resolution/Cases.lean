import ScriptConsole.Resolution.Chain

namespace ScriptConsole.Environment
variable (env : Environment)

/-- The methods of a name on the types of a reference. -/
def methods (current : Reference) (name : String) : List Signature :=
  (env.signatures current name).filter (·.kind == .method)

theorem mem_signatures {current : Reference} {name : String} {sig : Signature} :
    sig ∈ env.signatures current name ↔
      ∃ type ∈ current.types, env.catalog.signature type name = some sig :=
  List.mem_filterMap

theorem mem_methods {current : Reference} {name : String} {sig : Signature} :
    sig ∈ env.methods current name ↔ sig.kind = .method ∧
      ∃ type ∈ current.types, env.catalog.signature type name = some sig := by
  rw [methods, List.mem_filter, mem_signatures, beq_iff_eq, and_comm]

theorem followCall_nil {current : Reference} {name : String} (source : String)
    (h : env.methods current name = []) :
    env.followCall current name source = ⟨.unresolved, []⟩ := by
  rw [methods] at h
  rw [followCall, h]

theorem followCall_of_ne_nil {current : Reference} {name : String} (source : String)
    (h : env.methods current name ≠ []) :
    env.followCall current name source =
      ⟨ofOutcome (env.methods current name) (env.evaluator env.scope source), [source]⟩ := by
  unfold followCall
  split
  · next hnone => exact (h hnone).elim
  · rfl

/-- The evaluator cannot say, or answers `null`. -/
def Silent : Except EvalError Value → Prop
  | .ok .null | .error (.unsupported _) => True
  | _ => False

theorem ofOutcome_silent (found : List Signature) {outcome : Except EvalError Value}
    (h : Silent outcome) : ofOutcome found outcome = .declared found := by
  unfold Silent at h
  split at h
  · rfl
  · rfl
  · exact h.elim

theorem ofOutcome_ok (found : List Signature) {v : Value} (h : v.isNull = false) :
    ofOutcome found (.ok v) = .ofValue v := by
  cases v with
  | null => cases h
  | void | boolean _ | integer _ | string _ | object _ _ => rfl

theorem ofOutcome_refused (found : List Signature) {error : EvalError}
    (h : error.isUnsupported = false) : ofOutcome found (.error error) = .unresolved := by
  cases error with
  | unsupported _ => cases h
  | _ => rfl

/-- An answer is silent, a value, or an error that ends the chain. -/
theorem outcome_cases (outcome : Except EvalError Value) :
    Silent outcome ∨ (∃ v, outcome = .ok v ∧ v.isNull = false) ∨
      ∃ error, outcome = .error error ∧ error.isUnsupported = false := by
  match outcome with
  | .ok .null | .error (.unsupported _) => exact .inl trivial
  | .ok .void | .ok (.boolean _) | .ok (.integer _) | .ok (.string _) | .ok (.object _ _) =>
    exact .inr (.inl ⟨_, rfl, rfl⟩)
  | .error (.parse _) | .error (.unbound _) | .error (.unknownMember _ _)
  | .error (.noMatchingOverload _ _ _) | .error (.noInstance _ _) | .error (.nullReceiver _)
  | .error (.thrown _) => exact .inr (.inr ⟨_, rfl, rfl⟩)

/-- What `.name(…)` behind `current` can lead to, and what it asks. -/
inductive CallStep (current : Reference) (name source : String) : Resolution → Prop where
  | unknown (none : env.methods current name = []) :
    CallStep current name source ⟨.unresolved, []⟩
  | declared (found : env.methods current name ≠ [])
    (silent : Silent (env.evaluator env.scope source)) :
    CallStep current name source ⟨.declared (env.methods current name), [source]⟩
  | value (found : env.methods current name ≠ []) (v : Value)
    (answer : env.evaluator env.scope source = .ok v) (live : v.isNull = false) :
    CallStep current name source ⟨.ofValue v, [source]⟩
  | refused (found : env.methods current name ≠ []) (error : EvalError)
    (answer : env.evaluator env.scope source = .error error)
    (definite : error.isUnsupported = false) :
    CallStep current name source ⟨.unresolved, [source]⟩

theorem callStep (current : Reference) (name source : String) :
    env.CallStep current name source (env.followCall current name source) := by
  by_cases hnone : env.methods current name = []
  · rw [env.followCall_nil source hnone]
    exact .unknown hnone
  · rw [env.followCall_of_ne_nil source hnone]
    obtain hsilent | ⟨v, hv, hlive⟩ | ⟨error, herror, hdefinite⟩ :=
      outcome_cases (env.evaluator env.scope source)
    · rw [ofOutcome_silent _ hsilent]
      exact .declared hnone hsilent
    · rw [hv, ofOutcome_ok _ hlive]
      exact .value hnone v hv hlive
    · rw [herror, ofOutcome_refused _ hdefinite]
      exact .refused hnone error herror hdefinite

/-- `.name` reads what a value stores, as a signature declares a field of that name. -/
structure Reads (current : Reference) (name : String) (stored : Value) : Prop where
  stores : ∃ v type, current = .value v type ∧ v.stored? name = some stored
  live : stored.isNull = false
  field : ∃ sig ∈ env.signatures current name, sig.kind = .field

theorem Reads.unique {env : Environment} {current : Reference} {name : String}
    {stored other : Value} (h : env.Reads current name stored)
    (h' : env.Reads current name other) : stored = other := by
  obtain ⟨v, type, hcurrent, hstored⟩ := h.stores
  obtain ⟨v', type', hcurrent', hother⟩ := h'.stores
  cases hcurrent.symm.trans hcurrent'
  exact Option.some.inj (hstored.symm.trans hother)

/-- What `.name` behind `current` can lead to. -/
inductive FieldStep (current : Reference) (name : String) : Reference → Prop where
  | inner (path : QualifiedName) (front : current = .package path)
    (isClass : env.catalog.hasClass (QualifiedName.join path name) = true) :
    FieldStep current name (.static (QualifiedName.join path name))
  | subpackage (path : QualifiedName) (front : current = .package path)
    (isPackage : env.catalog.isPackage (QualifiedName.join path name) = true) :
    FieldStep current name (.package (QualifiedName.join path name))
  | outside (path : QualifiedName) (front : current = .package path)
    (noClass : env.catalog.hasClass (QualifiedName.join path name) = false)
    (noPackage : env.catalog.isPackage (QualifiedName.join path name) = false) :
    FieldStep current name .unresolved
  | read (stored : Value) (reads : env.Reads current name stored) :
    FieldStep current name (.ofValue stored)
  | declared (front : ∀ path, current ≠ .package path)
    (unread : ∀ stored, ¬ env.Reads current name stored) :
    FieldStep current name (.declared (env.signatures current name))

theorem not_reads_of_ne_value {current : Reference} {name : String}
    (h : ∀ v type, current ≠ .value v type) (stored : Value) :
    ¬ env.Reads current name stored := by
  intro hreads
  obtain ⟨v, type, hcurrent, _⟩ := hreads.stores
  exact h v type hcurrent

theorem fieldStep (current : Reference) (name : String) :
    env.FieldStep current name (env.followField current name) := by
  cases current with
  | topLevel | unresolved | static _ | union _ =>
    exact .declared nofun (env.not_reads_of_ne_value nofun)
  | package path =>
    unfold followField
    dsimp only
    by_cases hclass : env.catalog.hasClass (QualifiedName.join path name) = true
    · rw [if_pos hclass]
      exact .inner path rfl hclass
    · rw [if_neg hclass]
      by_cases hpackage : env.catalog.isPackage (QualifiedName.join path name) = true
      · rw [if_pos hpackage]
        exact .subpackage path rfl hpackage
      · rw [if_neg hpackage]
        exact .outside path rfl (by simpa using hclass) (by simpa using hpackage)
  | value v type =>
    unfold followField
    dsimp only
    cases hstored : v.stored? name with
    | none =>
      refine .declared nofun ?_
      intro stored hreads
      obtain ⟨_, _, hcurrent, hother⟩ := hreads.stores
      cases hcurrent
      cases hstored.symm.trans hother
    | some stored =>
      dsimp only
      split
      · next hguard =>
        obtain ⟨hlive, hfield⟩ := Bool.and_eq_true_iff.1 hguard
        obtain ⟨sig, hsig, hkind⟩ := List.any_eq_true.1 hfield
        exact .read stored ⟨⟨v, type, rfl, hstored⟩, by simpa using hlive, sig, hsig,
          by simpa using hkind⟩
      · next hguard =>
        refine .declared nofun ?_
        intro other hreads
        obtain ⟨_, _, hcurrent, hother⟩ := hreads.stores
        cases hcurrent
        cases hstored.symm.trans hother
        obtain ⟨sig, hsig, hkind⟩ := hreads.field
        refine hguard (Bool.and_eq_true_iff.2 ⟨by simp [hreads.live], ?_⟩)
        exact List.any_eq_true.2 ⟨sig, hsig, by simp [hkind]⟩

/-- A head refers to something in the scope, to the value of a literal, or to nothing known. -/
theorem resolveHead_cases (head : Head) (h : head ≠ .topLevel) :
    (∃ name referent, head = .name name ∧ env.scope.resolve env.catalog name = some referent ∧
        env.resolveHead head = referent.toReference) ∨
      (∃ source v, head = .literal source ∧ literalValue? source = some v ∧
        env.resolveHead head = .ofValue v) ∨
      env.resolveHead head = .unresolved := by
  cases head with
  | topLevel => exact (h rfl).elim
  | name text =>
    cases hreferent : env.scope.resolve env.catalog text with
    | some referent => exact .inl ⟨text, referent, rfl, hreferent, by simp [resolveHead, hreferent]⟩
    | none => exact .inr (.inr (by simp [resolveHead, hreferent]))
  | literal source =>
    cases hv : literalValue? source with
    | some v => exact .inr (.inl ⟨source, v, rfl, hv, by simp [resolveHead, hv]⟩)
    | none => exact .inr (.inr (by simp [resolveHead, hv]))

theorem step_unresolved (segment : Segment) (source : String) :
    env.step .unresolved segment source = ⟨.unresolved, []⟩ := by
  unfold step
  split
  · exact env.followCall_nil source rfl
  · rfl

section Agreement
variable (other : Environment)

theorem followField_congr (hcatalog : other.catalog = env.catalog) (current : Reference)
    (name : String) : other.followField current name = env.followField current name := by
  obtain ⟨scope, catalog, evaluator⟩ := other
  obtain rfl : catalog = env.catalog := hcatalog
  rfl

theorem step_congr (hcatalog : other.catalog = env.catalog) (current : Reference)
    (segment : Segment) (source : String)
    (h : ∀ x ∈ (env.step current segment source).asked,
      other.evaluator other.scope x = env.evaluator env.scope x) :
    other.step current segment source = env.step current segment source := by
  have hmethods : other.methods current segment.name = env.methods current segment.name := by
    simp only [methods, signatures, hcatalog]
  unfold step at h ⊢
  split
  · next hcall =>
    rw [if_pos hcall] at h
    by_cases hnone : env.methods current segment.name = []
    · rw [env.followCall_nil source hnone, other.followCall_nil source (hmethods.trans hnone)]
    · rw [env.followCall_of_ne_nil source hnone] at h ⊢
      rw [other.followCall_of_ne_nil source (by rwa [hmethods]), hmethods,
        h source (List.mem_singleton_self source)]
  · rw [followField_congr env other hcatalog]

end Agreement

end ScriptConsole.Environment
