import ScriptConsole.Proofs.Completion.Matching
import ScriptConsole.Proofs.Resolution.Failure
import ScriptConsole.Proofs.Resolution.Live

namespace ScriptConsole

/-- `w` is `v`, or stored somewhere inside it. -/
inductive Value.Within (w : Value) : Value → Prop where
  | refl : Within w w
  | stored {v : Value} (name : String) (inner : Value) (h : v.stored? name = some inner)
    (within : Within w inner) : Within w v

/-- Every object in `v` stores in the fields of its class only `null` and values of the declared
type. -/
def Registry.Conforms (r : Registry) (v : Value) : Prop :=
  ∀ w : Value, w.Within v → ∀ (type name declared : String) (stored : Value),
    w.type? = some type → r.signature type name = some ⟨.field, [declared]⟩ →
    w.stored? name = some stored → stored.isNull = true ∨ stored.type? = some declared

theorem Registry.Conforms.stored {r : Registry} {v inner : Value} (h : r.Conforms v)
    (name : String) (hstored : v.stored? name = some inner) : r.Conforms inner :=
  fun w hw => h w (.stored name inner hstored hw)

theorem conforms_of_stored_none (r : Registry) {v : Value} (h : ∀ name, v.stored? name = none) :
    r.Conforms v := by
  intro w hw type name declared stored _ _ hstored
  cases hw with
  | refl => cases (h name).symm.trans hstored
  | stored inner _ hinner _ => cases (h inner).symm.trans hinner

theorem signature_of_field (r : Registry) (type name : String) (sig : Signature)
    (h : r.signature type name = some sig) (hkind : sig.kind = .field) :
    ∃ declared, sig = ⟨.field, [declared]⟩ := by
  obtain ⟨hnone, f, hf⟩ := signature_field r type name sig h hkind
  rw [signature_field_of r type name f hnone hf] at h
  exact ⟨f.type, (Option.some.inj h).symm⟩

theorem binding?_of_resolve {s : Scope} {catalog : Catalog} {name : String} {v : Value}
    (h : s.resolve catalog name = some (.value v)) : s.binding? name = some v := by
  unfold Scope.resolve at h
  split at h
  · next w hw =>
    cases h
    exact hw
  · split at h
    · cases h
    · split at h <;> cases h

theorem stored?_literalValue {source : String} {v : Value} (h : literalValue? source = some v)
    (name : String) : v.stored? name = none := by
  unfold literalValue? at h
  split at h
  · cases h
    rfl
  · obtain ⟨n, _, rfl⟩ := Option.map_eq_some_iff.1 h
    rfl

theorem mem_types_declared (found : List Signature) (type : String) :
    type ∈ (Reference.declared found).types ↔
      type ≠ TypeName.void ∧ ∃ sig ∈ found, type ∈ sig.types := by
  have hmem : type ∈ (found.flatMap Signature.types).eraseDups.filter (· != TypeName.void) ↔
      type ≠ TypeName.void ∧ ∃ sig ∈ found, type ∈ sig.types := by
    rw [List.mem_filter, List.mem_eraseDups, List.mem_flatMap, bne_iff_ne, and_comm]
  rw [← hmem, Reference.declared]
  unfold Reference.ofTypes
  split
  · next hnone =>
    rw [hnone]
    exact iff_of_false List.not_mem_nil List.not_mem_nil
  · next hone =>
    rw [hone]
    rfl
  · rfl

/-- Types alone, without a value. -/
def Reference.IsDeclared : Reference → Prop
  | .static _ | .union _ => True
  | _ => False

theorem Reference.IsDeclared.typed {d : Reference} (h : d.IsDeclared) : d.IsTyped := by
  cases d with
  | static _ | union _ => trivial
  | topLevel | value _ _ | package _ | unresolved => exact h.elim

theorem declared_cases (found : List Signature) :
    Reference.declared found = .unresolved ∨ (Reference.declared found).IsDeclared := by
  unfold Reference.declared Reference.ofTypes
  split
  · exact .inl rfl
  · exact .inr trivial
  · exact .inr trivial

theorem isDeclared_of_mem {found : List Signature} {type : String}
    (h : type ∈ (Reference.declared found).types) : (Reference.declared found).IsDeclared := by
  obtain hnone | hdeclared := declared_cases found
  · rw [hnone] at h
    cases h
  · exact hdeclared

/-- A live value has the type that it is taken for, and its fields have theirs. -/
def Registry.Sound (r : Registry) (l : Reference) : Prop :=
  ∀ v type, l = .value v type → v.type? = some type ∧ r.Conforms v

/-- What is found with values, against what is found with declared types alone: nothing, the same,
or fewer types. -/
inductive Registry.Narrows (r : Registry) : Reference → Reference → Prop where
  | unresolved (d : Reference) : Narrows r .unresolved d
  | same {l : Reference} (sound : r.Sound l) : Narrows r l l
  | fewer {l d : Reference} (sound : r.Sound l) (typed : l.IsTyped) (declared : d.IsDeclared)
    (types : l.types ⊆ d.types) : Narrows r l d

section Narrowing
variable (r : Registry)

theorem sound_declared (found : List Signature) : r.Sound (.declared found) :=
  fun v type h => (declared_ne_value found v type h).elim

theorem sound_ofValue {v : Value} (h : r.Conforms v) : r.Sound (.ofValue v) := by
  intro w type hw
  obtain ⟨rfl, htype, _⟩ := (ofValue_value v w type).1 hw
  exact ⟨htype, h⟩

theorem declared_narrows {found more : List Signature} (h : found ⊆ more) :
    r.Narrows (.declared found) (.declared more) := by
  have htypes : (Reference.declared found).types ⊆ (Reference.declared more).types := by
    intro type htype
    obtain ⟨hne, sig, hsig, hmem⟩ := (mem_types_declared found type).1 htype
    exact (mem_types_declared more type).2 ⟨hne, sig, h hsig, hmem⟩
  obtain hnone | hfound := declared_cases found
  · rw [hnone]
    exact .unresolved _
  · obtain hnone | hmore := declared_cases more
    · have hvoid := (declared_unresolved_iff more).1 hnone
      rw [(declared_unresolved_iff found).2 fun sig hsig => hvoid sig (h hsig)]
      exact .unresolved _
    · exact .fewer (sound_declared r found) hfound.typed hmore htypes

theorem ofValue_narrows {v : Value} {found : List Signature} (hv : r.Conforms v)
    (h : ∀ type, v.type? = some type → type ≠ TypeName.void → ∃ sig ∈ found, type ∈ sig.types) :
    r.Narrows (.ofValue v) (.declared found) := by
  have hsound := sound_ofValue r hv
  unfold Reference.ofValue at hsound ⊢
  split
  · exact .unresolved _
  · next type htype =>
    split
    · exact .unresolved _
    · next hne =>
      rw [htype] at hsound
      dsimp only at hsound
      rw [if_neg hne] at hsound
      have hmem : type ∈ (Reference.declared found).types :=
        (mem_types_declared found type).2 ⟨hne, h type htype hne⟩
      refine .fewer hsound trivial (isDeclared_of_mem hmem) ?_
      intro other hother
      obtain rfl := List.mem_singleton.1 hother
      exact hmem

theorem signatures_narrow (env : Environment) {l d : Reference} (h : r.Narrows l d)
    (name : String) : env.signatures l name ⊆ env.signatures d name := by
  intro sig hsig
  cases h with
  | unresolved d => cases hsig
  | same _ => exact hsig
  | fewer _ _ _ htypes =>
    obtain ⟨type, htype, hfound⟩ := env.mem_signatures.1 hsig
    exact env.mem_signatures.2 ⟨type, htypes htype, hfound⟩

theorem methods_narrow (env : Environment) {l d : Reference} (h : r.Narrows l d) (name : String) :
    env.methods l name ⊆ env.methods d name := by
  intro sig hsig
  obtain ⟨hmem, hkind⟩ := List.mem_filter.1 hsig
  exact List.mem_filter.2 ⟨signatures_narrow r env h name hmem, hkind⟩

theorem members_narrow {l d : Reference} (h : r.Narrows l d) (scope : Scope) (catalog : Catalog)
    (name : String) (hname : name ∈ (l.members scope catalog).names) :
    name ∈ (d.members scope catalog).names := by
  cases h with
  | unresolved d => cases hname
  | same _ => exact hname
  | fewer _ htyped hdeclared htypes =>
    obtain ⟨type, htype, hmembers⟩ := (members_typed _ htyped scope catalog name).1 hname
    exact (members_typed _ hdeclared.typed scope catalog name).2 ⟨type, htypes htype, hmembers⟩

variable (s : Scope) (E : Evaluator)

/-- The environment in which `E` evaluates the calls. -/
def Registry.running (r : Registry) (s : Scope) (E : Evaluator) : Environment := ⟨s, r.catalog, E⟩

/-- What is read from a sound value is sound, and of the type of a signature found for it. -/
theorem conforms_of_reads {l : Reference} (hsound : r.Sound l) (name : String) (stored : Value)
    (h : (r.running s E).Reads l name stored) :
    r.Conforms stored ∧ ∀ type, stored.type? = some type →
      ∃ sig ∈ (r.running s E).signatures l name, type ∈ sig.types := by
  obtain ⟨v, type, rfl, hstored⟩ := h.stores
  obtain ⟨htype, hconforms⟩ := hsound v type rfl
  refine ⟨hconforms.stored name hstored, ?_⟩
  intro dynamic hdynamic
  obtain ⟨sig, hsig, hkind⟩ := h.field
  obtain ⟨owner, howner, hfound⟩ := (Environment.mem_signatures _).1 hsig
  obtain rfl := List.mem_singleton.1 howner
  obtain ⟨declared, rfl⟩ := signature_of_field r owner name sig hfound hkind
  refine ⟨_, hsig, ?_⟩
  obtain hnull | hdeclared := hconforms v .refl owner name declared stored htype hfound hstored
  · rw [h.live] at hnull
    cases hnull
  · rw [hdeclared] at hdynamic
    obtain rfl := Option.some.inj hdynamic
    exact List.mem_singleton_self declared

theorem sound_followField {l : Reference} (hsound : r.Sound l) (name : String) :
    r.Sound ((r.running s E).followField l name) := by
  have hstep := (r.running s E).fieldStep l name
  generalize (r.running s E).followField l name = next at hstep
  cases hstep with
  | inner | subpackage | outside => nofun
  | read stored hreads =>
    exact sound_ofValue r (conforms_of_reads r s E hsound name stored hreads).1
  | declared => exact sound_declared r _

theorem followField_declared (env : Environment) {d : Reference} (h : d.IsDeclared)
    (name : String) : env.followField d name = .declared (env.signatures d name) := by
  cases d with
  | static _ | union _ => rfl
  | topLevel | value _ _ | package _ | unresolved => exact h.elim

theorem followField_narrows {l d : Reference} (h : r.Narrows l d) (name : String) :
    r.Narrows ((r.running s E).followField l name)
      ((r.running s .disabled).followField d name) := by
  have hsubset := signatures_narrow r (r.running s E) h name
  rw [Environment.followField_congr (r.running s E) (r.running s .disabled) rfl]
  cases h with
  | unresolved d => exact .unresolved _
  | same hsound => exact .same (sound_followField r s E hsound name)
  | fewer hsound htyped hdeclared _ =>
    rw [followField_declared _ hdeclared]
    have hstep := (r.running s E).fieldStep l name
    generalize (r.running s E).followField l name = next at hstep
    cases hstep with
    | inner path hfront | subpackage path hfront | outside path hfront =>
      rw [hfront] at htyped
      exact htyped.elim
    | read stored hreads =>
      obtain ⟨hconforms, hsigs⟩ := conforms_of_reads r s E hsound name stored hreads
      refine ofValue_narrows r hconforms ?_
      intro type htype _
      obtain ⟨sig, hsig, hmem⟩ := hsigs type htype
      exact ⟨sig, hsubset hsig, hmem⟩
    | declared => exact declared_narrows r hsubset

/-- A call yields a sound value of a type that its methods declare. -/
def Registry.Returns (r : Registry) (s : Scope) (E : Evaluator) (l : Reference)
    (name source : String) : Prop :=
  ∀ v, E s source = .ok v → r.Conforms v ∧ ∀ type, v.type? = some type → type ≠ TypeName.void →
    ∃ sig ∈ (r.running s E).methods l name, type ∈ sig.types

theorem followCall_disabled {d : Reference} {name : String} (source : String)
    (h : (r.running s .disabled).methods d name ≠ []) :
    ((r.running s .disabled).followCall d name source).reference =
      .declared ((r.running s .disabled).methods d name) := by
  have hsilent : Environment.Silent (Evaluator.disabled s source) := trivial
  rw [Environment.followCall_of_ne_nil _ source h]
  exact Environment.ofOutcome_silent _ hsilent

theorem followCall_narrows {l d : Reference} (h : r.Narrows l d) (name source : String)
    (hreturns : (r.running s E).methods l name ≠ [] → r.Returns s E l name source) :
    r.Narrows ((r.running s E).followCall l name source).reference
      ((r.running s .disabled).followCall d name source).reference := by
  have hsubset := methods_narrow r (r.running s E) h name
  have hd (hfound : (r.running s E).methods l name ≠ []) :
      (r.running s .disabled).methods d name ≠ [] :=
    List.ne_nil_of_mem (hsubset (List.head_mem hfound))
  have hstep := (r.running s E).callStep l name source
  generalize (r.running s E).followCall l name source = next at hstep
  cases hstep with
  | unknown | refused => exact .unresolved _
  | declared hfound _ =>
    rw [followCall_disabled r s source (hd hfound)]
    exact declared_narrows r hsubset
  | value hfound v hv _ =>
    rw [followCall_disabled r s source (hd hfound)]
    obtain ⟨hconforms, htypes⟩ := hreturns hfound v hv
    refine ofValue_narrows r hconforms ?_
    intro type htype hne
    obtain ⟨sig, hsig, hmem⟩ := htypes type htype hne
    exact ⟨sig, hsubset hsig, hmem⟩

theorem step_narrows {l d : Reference} (h : r.Narrows l d) (segment : Segment) (source : String)
    (hreturns : segment.isCall = true → (r.running s E).methods l segment.name ≠ [] →
      r.Returns s E l segment.name source) :
    r.Narrows ((r.running s E).step l segment source).reference
      ((r.running s .disabled).step d segment source).reference := by
  unfold Environment.step
  split
  · next hcall => exact followCall_narrows r s E h segment.name source (hreturns hcall)
  · exact followField_narrows r s E h segment.name

/-- Values are of their declared types: what is bound, and what the calls of the chain yield. -/
structure Registry.Truthful (r : Registry) (s : Scope) (E : Evaluator) (chain : AccessChain) :
    Prop where
  bound : ∀ name v, s.binding? name = some v → r.Conforms v
  returned : ∀ i, (r.running s E).Consults chain i → ∀ v, E s (chain.fragment i) = .ok v →
    r.Conforms v
  /-- The dynamic type is declared for the method on a type in front of the call. -/
  declared : ∀ i (hi : i < chain.segments.length), (r.running s E).Consults chain i →
    ∀ v type, E s (chain.fragment i) = .ok v → v.type? = some type → type ≠ TypeName.void →
      ∃ owner ∈ ((r.running s E).reached chain i).types, ∃ sig,
        r.signature owner chain.segments[i].name = some sig ∧ sig.kind = .method ∧
          type ∈ sig.types

theorem sound_resolveHead (head : Head)
    (hbound : ∀ name v, s.binding? name = some v → r.Conforms v) :
    r.Sound ((r.running s E).resolveHead head) := by
  by_cases htop : head = .topLevel
  · rw [htop]
    nofun
  · obtain ⟨name, referent, rfl, hreferent, hhead⟩ | ⟨source, v, rfl, hv, hhead⟩ | hhead :=
      (r.running s E).resolveHead_cases head htop
    · rw [hhead]
      cases referent with
      | value v => exact sound_ofValue r (hbound name v (binding?_of_resolve hreferent))
      | type name | package path => nofun
    · rw [hhead]
      exact sound_ofValue r (conforms_of_stored_none r (stored?_literalValue hv))
    · rw [hhead]
      nofun

/-- What is found along a chain with values is narrower than what is found without. -/
theorem reached_narrows {chain : AccessChain} (h : r.Truthful s E chain) (k : Nat)
    (hk : k ≤ chain.segments.length) :
    r.Narrows ((r.running s E).reached chain k) ((r.running s .disabled).reached chain k) := by
  induction k with
  | zero =>
    rw [Environment.reached_zero, Environment.reached_zero]
    exact .same (sound_resolveHead r s E chain.head h.bound)
  | succ k ih =>
    rw [Environment.reached_succ _ hk, Environment.reached_succ _ hk]
    refine step_narrows r s E (ih (Nat.le_of_lt hk)) _ _ ?_
    intro hcall hmethods v hv
    have hasked := ((r.running s E).consults_iff hk).2 ⟨hcall, hmethods⟩
    refine ⟨h.returned k hasked v hv, ?_⟩
    intro type htype hne
    obtain ⟨owner, howner, sig, hsig, hkind, hmem⟩ := h.declared k hk hasked v type hv htype hne
    exact ⟨sig, (Environment.mem_methods _).2 ⟨hkind, owner, howner, hsig⟩, hmem⟩

end Narrowing

/-- Where values are of their declared types and the number of items is not limited, every label
that is offered with an evaluator is offered without one. -/
theorem labels_without_evaluation (r : Registry) (s : Scope) (E : Evaluator)
    (config : CompletionConfig) (hlimit : config.limit = none) (input : String) (cursor : Nat)
    (h : ∀ chain, splitChain (lineAt input cursor) = .ok chain → r.Truthful s E chain) :
    ((r.running s E).items config input cursor).map CompletionItem.label ⊆
      ((r.running s .disabled).items config input cursor).map CompletionItem.label := by
  intro label hlabel
  unfold Environment.items Environment.completion Environment.completeLine at hlabel ⊢
  cases hsplit : splitChain (lineAt input cursor) with
  | error _ =>
    rw [hsplit] at hlabel
    cases hlabel
  | ok chain =>
    rw [hsplit] at hlabel
    simp only [CompletionConfig.cap, hlimit, mem_labels] at hlabel ⊢
    have hnarrows := reached_narrows r s E (h chain hsplit) _ (Nat.le_refl _)
    rw [Environment.reached_length, Environment.reached_length] at hnarrows
    exact ⟨members_narrow r hnarrows s r.catalog label hlabel.1, hlabel.2⟩

/-- Makers make links of a chain, and are declared to make rings too. -/
def makerRegistry : Registry where
  classes := [
    { name := "q.Maker"
      methods := [
        ⟨"make", "q.Link", .exact 0, false,
          some fun _ _ => .ok (.object "q.Link" [("next", .object "q.Link" [])])⟩,
        ⟨"make", "q.Ring", .exact 1, false, none⟩] },
    { name := "q.Link", fields := [⟨"next", "q.Link", false⟩] },
    { name := "q.Ring", fields := [⟨"next", "q.Ring", false⟩, ⟨"size", TypeName.long, false⟩] }]
  packages := ["q"]

def makerScope : Scope where
  bindings := [("m", .object "q.Maker" [])]
  importedClasses := []
  importedPackages := []
  keywords := consoleKeywords
  roots := []

def madeChain : AccessChain where
  start := 0
  head := .name "m"
  headSpan := ⟨0, 1⟩
  segments := [⟨"make", some ⟨"", ⟨7, 7⟩⟩, ⟨2, 8⟩⟩, ⟨"next", none, ⟨9, 13⟩⟩]
  stem := ""

theorem maker_conforms : makerRegistry.Conforms (.object "q.Maker" []) :=
  conforms_of_stored_none makerRegistry fun _ => rfl

theorem link_conforms :
    makerRegistry.Conforms (.object "q.Link" [("next", .object "q.Link" [])]) := by
  have hnext : makerRegistry.signature "q.Link" "next" = some ⟨.field, ["q.Link"]⟩ := by
    decide +kernel
  intro w hw type name declared stored htype hsig hstored
  cases hw with
  | refl =>
    obtain ⟨rfl, rfl⟩ := Prod.mk.inj (List.mem_singleton.1 (Entries.mem_of_get? hstored))
    cases htype
    cases hnext.symm.trans hsig
    exact .inr rfl
  | stored field inner hinner hwithin =>
    obtain ⟨rfl, rfl⟩ := Prod.mk.inj (List.mem_singleton.1 (Entries.mem_of_get? hinner))
    have hempty : makerRegistry.Conforms (.object "q.Link" []) :=
      conforms_of_stored_none makerRegistry fun _ => rfl
    exact hempty w hwithin type name declared stored htype hsig hstored

theorem labels_without_evaluation_made :
    "next" ∈ ((makerRegistry.running makerScope makerRegistry.interpret).items {} "m.make().next."
        14).map CompletionItem.label ∧
      "next" ∈ ((makerRegistry.running makerScope .disabled).items {} "m.make().next." 14).map
        CompletionItem.label := by
  have hsplit : splitChain (lineAt "m.make().next." 14) = .ok madeChain := by decide +kernel
  have hlive : "next" ∈ ((makerRegistry.running makerScope makerRegistry.interpret).items {}
      "m.make().next." 14).map CompletionItem.label := by
    decide +kernel
  refine ⟨hlive, labels_without_evaluation makerRegistry makerScope makerRegistry.interpret {} rfl
    "m.make().next." 14 ?_ hlive⟩
  intro chain hchain
  obtain rfl := Except.ok.inj (hsplit.symm.trans hchain)
  have hmade : makerRegistry.interpret makerScope (madeChain.fragment 0) =
      .ok (.object "q.Link" [("next", .object "q.Link" [])]) := by
    with_unfolding_all rfl
  have hmake : makerRegistry.signature "q.Maker" "make" =
      some ⟨.method, ["q.Link", "q.Ring"]⟩ := by
    decide +kernel
  have hfirst (i : Nat) (hi : (makerRegistry.running makerScope
      makerRegistry.interpret).Consults madeChain i) : i = 0 := by
    have hinside : i < 2 := hi.inside
    have hcall := hi.call
    match i, hinside with
    | 0, _ => rfl
    | 1, _ => cases hcall
  refine ⟨?_, ?_, ?_⟩
  · intro name v hv
    have hbound := Entries.mem_of_get? hv
    obtain rfl := congrArg Prod.snd (List.mem_singleton.1 hbound)
    exact maker_conforms
  · intro i hi v hv
    obtain rfl := hfirst i hi
    cases hmade.symm.trans hv
    exact link_conforms
  · intro i _ hi v type hv htype _
    obtain rfl := hfirst i hi
    cases hmade.symm.trans hv
    cases htype
    exact ⟨"q.Maker", List.mem_singleton_self _, _, hmake, rfl, List.mem_cons_self⟩

end ScriptConsole
