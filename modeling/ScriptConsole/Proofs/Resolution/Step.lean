import ScriptConsole.Proofs.Resolution.Live
import ScriptConsole.Proofs.Resolution.Trace

namespace ScriptConsole

/-- The reference that the interpreter's referent calls for.  Nothing is asked of values without
members. -/
def Mirrors : Referent → Reference → Prop
  | .value v, current =>
    ∀ type, v.type? = some type → type ≠ TypeName.void → current = .value v type
  | .type name, current => current = .static name
  | .package path, current => current = .package path

/-- The catalog offers the member that a segment reads from `w`: there are none of type `void`, and
a method hides a field. -/
def Registry.Offers (r : Registry) (seg : Segment) (w : Value) : Prop :=
  ∀ type, w.type? = some type →
    type ≠ TypeName.void ∧ (seg.isCall = false → r.overloads type seg.name = [])

section Complete
variable (r : Registry) (s : Scope)

theorem mirrors_toReference (x : Referent) : Mirrors x x.toReference := by
  cases x with
  | value v =>
    intro type ht hne
    exact (ofValue_value v v type).2 ⟨rfl, ht, hne⟩
  | type name | package path => rfl

theorem readMember_value (w : Value) (name : String) (z : Referent)
    (h : r.readMember (.value w) name = .ok z) :
    ∃ type f, w.type? = some type ∧ r.field? type name = some f ∧
      z = .value ((w.stored? name).getD .null) := by
  unfold Registry.readMember at h
  dsimp only at h
  split at h
  · cases h
  · next type ht =>
    split at h
    · cases h
    · next f hf =>
      cases h
      exact ⟨type, f, ht, hf, rfl⟩

theorem callMember_type (q name : String) (vs : List Value) (v : Value)
    (h : r.callMember (.type q) name vs = .ok v) : r.overloads q name ≠ [] := by
  obtain ⟨m, hm, _⟩ := (bind_ok_iff _ _ _).1 h
  exact overloads_of_select r q name _ m hm

theorem callMember_value (w : Value) (name : String) (vs : List Value) (v : Value)
    (h : r.callMember (.value w) name vs = .ok v) :
    ∃ type, w.type? = some type ∧ r.overloads type name ≠ [] := by
  unfold Registry.callMember at h
  dsimp only at h
  split at h
  · cases h
  · next type ht =>
    obtain ⟨m, hm, _⟩ := (bind_ok_iff _ _ _).1 h
    exact ⟨type, ht, overloads_of_select r type name _ m hm⟩

theorem followField_package (path : QualifiedName) (name : String) :
    (r.live s).followField (.package path) name =
      if r.hasClass (QualifiedName.join path name) then .static (QualifiedName.join path name)
      else if r.isPackage (QualifiedName.join path name) then
        .package (QualifiedName.join path name)
      else .unresolved := rfl

theorem followField_mirrors (x y : Referent) (current : Reference) (seg : Segment)
    (hseg : seg.isCall = false) (hm : Mirrors x current)
    (hoff : ∀ w, x = .value w → r.Offers seg w) (hread : r.readMember x seg.name = .ok y) :
    current.isUnresolved = false ∧ Mirrors y ((r.live s).followField current seg.name) := by
  cases x with
  | package path =>
    obtain rfl : current = .package path := hm
    refine ⟨rfl, ?_⟩
    unfold Registry.readMember at hread
    dsimp only at hread
    rw [followField_package]
    split at hread
    · next hc =>
      cases hread
      rw [if_pos hc]
      rfl
    · next hc =>
      split at hread
      · next hp =>
        cases hread
        rw [if_neg hc, if_pos hp]
        rfl
      · cases hread
  | type q =>
    unfold Registry.readMember at hread
    dsimp only at hread
    split at hread
    · cases hread
    · split at hread <;> cases hread
  | value w =>
    obtain ⟨type, f, ht, hf, rfl⟩ := readMember_value r w seg.name y hread
    obtain ⟨hne, hnone⟩ := hoff w rfl type ht
    obtain rfl : current = .value w type := hm type ht hne
    refine ⟨rfl, ?_⟩
    intro type' ht' hne'
    cases hs : w.stored? seg.name with
    | none =>
      rw [hs] at ht'
      cases ht'
    | some stored =>
      rw [hs] at ht'
      change stored.type? = some type' at ht'
      have hsig := signature_field_of r type seg.name f (hnone hseg) hf
      have hnull : stored.isNull = false := by
        cases stored with
        | null => cases ht'
        | _ => rfl
      have hany : ((r.live s).signatures (.value w type) seg.name).any (·.kind == .field) := by
        simp [Environment.signatures, Reference.types, Registry.live, Registry.catalog, hsig]
      simp only [Environment.followField, hs, hnull, hany]
      exact (ofValue_value _ _ _).2 ⟨rfl, ht', hne'⟩

/-- The evaluator is asked for a call wherever a type of the reference has the method, and the chain
goes on from what it says. -/
theorem followCall_cases (current : Reference) (name source : String) :
    (∃ found, (r.live s).followCall current name source =
        ⟨Environment.ofOutcome found (r.interpret s source), [source]⟩) ∨
      (r.live s).followCall current name source = ⟨.unresolved, []⟩ ∧
        ∀ type ∈ current.types, r.overloads type name = [] := by
  by_cases hnone : (r.live s).methods current name = []
  · right
    refine ⟨Environment.followCall_nil _ source hnone, ?_⟩
    intro type ht
    by_contra hne
    obtain ⟨types, hsig⟩ := signature_method_of r type name hne
    have hmem : (⟨.method, types⟩ : Signature) ∈ (r.live s).methods current name :=
      (Environment.mem_methods _).2 ⟨rfl, type, ht, hsig⟩
    rw [hnone] at hmem
    cases hmem
  · exact .inl ⟨_, Environment.followCall_of_ne_nil _ source hnone⟩

theorem ofOutcome_mirrors (found : List Signature) (v : Value) :
    Mirrors (.value v) (Environment.ofOutcome found (.ok v)) :=
  fun type ht hne => (ofOutcome_value found _ v type).2 ⟨rfl, ht, hne⟩

theorem followCall_mirrors (x : Referent) (v : Value) (current : Reference) (seg : Segment)
    (source : String) (vs : List Value) (hm : Mirrors x current)
    (hoff : ∀ w, x = .value w → r.Offers seg w) (hcall : r.callMember x seg.name vs = .ok v)
    (hsource : r.interpret s source = .ok v) :
    current.isUnresolved = false ∧
      Mirrors (.value v) ((r.live s).followCall current seg.name source).reference := by
  have htype : current.isUnresolved = false ∧
      ∃ type ∈ current.types, r.overloads type seg.name ≠ [] := by
    cases x with
    | package path => cases hcall
    | type q =>
      obtain rfl : current = .static q := hm
      exact ⟨rfl, q, List.mem_singleton_self q, callMember_type r q seg.name vs v hcall⟩
    | value w =>
      obtain ⟨type, ht, hne⟩ := callMember_value r w seg.name vs v hcall
      obtain rfl : current = .value w type := hm type ht (hoff w rfl type ht).1
      exact ⟨rfl, type, List.mem_singleton_self type, hne⟩
  obtain ⟨hres, type, ht, hne⟩ := htype
  refine ⟨hres, ?_⟩
  obtain ⟨found, hfound⟩ | ⟨_, hnone⟩ := followCall_cases r s current seg.name source
  · rw [hfound, hsource]
    exact ofOutcome_mirrors found v
  · exact (hne (hnone type ht)).elim

/-- One segment keeps the resolver in step with the interpreter. -/
theorem step_mirrors (x z : Referent) (current : Reference) (source : String) (e : Expr)
    (seg : Segment) (args : Option (List Expr)) (hargs : args.isSome = seg.isCall)
    (hparse : parseExpression source = .ok (e.member seg.name args)) (hx : r.denote s e = .ok x)
    (hz : r.denote s (e.member seg.name args) = .ok z) (hm : Mirrors x current)
    (hoff : ∀ w, x = .value w → r.Offers seg w) :
    current.isUnresolved = false ∧ Mirrors z ((r.live s).step current seg source).reference := by
  unfold Environment.step
  cases args with
  | none =>
    have hseg : seg.isCall = false := hargs.symm
    obtain ⟨x', hx', hread⟩ := (denote_field r s e seg.name z).1 hz
    cases hx.symm.trans hx'
    rw [if_neg (by simp [hseg])]
    exact followField_mirrors r s x z current seg hseg hm hoff hread
  | some args =>
    have hseg : seg.isCall = true := hargs.symm
    obtain ⟨x', vs, v, hx', _, hcall, rfl⟩ := (denote_invoke r s e seg.name args z).1 hz
    cases hx.symm.trans hx'
    have hsource := (interpret_ok r s source v).2 ⟨_, hparse, hz⟩
    rw [if_pos hseg]
    exact followCall_mirrors r s x v current seg source vs hm hoff hcall hsource

/-- As long as nothing hides the members on the way, the resolver stays in step. -/
theorem follow_mirrors (x y : Referent) (current : Reference) (source : String) (e last : Expr)
    (segs : List Segment) (hgrows : Grows source e segs last) (hx : r.denote s e = .ok x)
    (hy : r.denote s last = .ok y) (hm : Mirrors x current)
    (hoff : ∀ j (hj : j < segs.length) w,
      r.interpret s (AccessChain.extend source (segs.take j)) = .ok w → r.Offers segs[j] w) :
    Mirrors y ((r.live s).follow current source segs).reference := by
  induction hgrows generalizing x current with
  | nil source e _ =>
    cases hx.symm.trans hy
    exact hm
  | cons source e seg args segs last hparse hargs hrest ih =>
    obtain ⟨z, hz⟩ := grows_denote r s _ _ _ _ hrest y hy
    have hhere : ∀ w, x = .value w → r.Offers seg w := by
      rintro w rfl
      exact hoff 0 (Nat.zero_lt_succ _) w ((interpret_ok r s source w).2 ⟨e, hparse, hx⟩)
    obtain ⟨hres, hz'⟩ := step_mirrors r s x z current _ e seg args hargs
      (grows_source _ _ _ _ hrest) hx hz hm hhere
    rw [Environment.follow, if_neg (by simp [hres])]
    refine ih z _ hz hy hz' ?_
    intro j hj w hw
    exact hoff (j + 1) (Nat.succ_lt_succ hj) w hw

theorem step_asked (current : Reference) (seg : Segment) (source x : String)
    (h : x ∈ ((r.live s).step current seg source).asked) :
    x = source ∧ seg.isCall = true ∧
      ∃ found, ((r.live s).step current seg source).reference =
        Environment.ofOutcome found (r.interpret s source) := by
  unfold Environment.step at h ⊢
  split at h
  · next hcall =>
    rw [if_pos hcall]
    obtain ⟨found, hfound⟩ | ⟨hnone, _⟩ := followCall_cases r s current seg.name source
    · rw [hfound] at h ⊢
      exact ⟨List.mem_singleton.1 h, hcall, found, rfl⟩
    · rw [hnone] at h
      cases h
  · cases h

theorem follow_asked_longer (current : Reference) (source x : String) (segs : List Segment)
    (h : x ∈ ((r.live s).follow current source segs).asked) : source.length < x.length := by
  induction segs generalizing current source with
  | nil => cases h
  | cons seg segs ih =>
    have hlonger := extend_longer source seg []
    rw [Environment.follow] at h
    split at h
    · cases h
    · obtain hnext | hlast := List.mem_append.1 h
      · obtain ⟨rfl, _⟩ := step_asked r s current seg _ x hnext
        exact hlonger
      · exact Nat.lt_trans hlonger (ih _ _ hlast)

/-- Whatever the chain in front was taken for, behind a call that the evaluator was asked for the
resolver is in step. -/
theorem asked_mirrors (y : Referent) (current : Reference) (source : String) (e last : Expr)
    (segs : List Segment) (hgrows : Grows source e segs last) (hy : r.denote s last = .ok y)
    (h : AccessChain.extend source segs ∈ ((r.live s).follow current source segs).asked) :
    Mirrors y ((r.live s).follow current source segs).reference := by
  induction hgrows generalizing current with
  | nil source e _ => cases h
  | cons source e seg args segs last hparse hargs hrest ih =>
    rw [Environment.follow] at h ⊢
    split at h
    · cases h
    · next hres =>
      rw [if_neg hres]
      obtain hnext | hlast := List.mem_append.1 h
      · obtain ⟨hsource, hcall, found, hfound⟩ := step_asked r s current seg _ _ hnext
        cases hrest with
        | nil _ _ hparse' =>
          obtain ⟨args, rfl⟩ := Option.isSome_iff_exists.1 (hargs.trans hcall)
          obtain ⟨_, _, v, _, _, _, rfl⟩ := (denote_invoke r s e seg.name args y).1 hy
          change Mirrors (.value v) ((r.live s).step current seg _).reference
          rw [hfound, (interpret_ok r s _ v).2 ⟨_, hparse', hy⟩]
          exact ofOutcome_mirrors found v
        | cons _ _ next _ segs _ _ _ _ =>
          -- only the source through this segment was asked for here
          have hlonger : (AccessChain.extend source [seg]).length <
              (AccessChain.extend source (seg :: next :: segs)).length :=
            extend_longer (AccessChain.extend source [seg]) next segs
          rw [hsource] at hlonger
          exact (Nat.lt_irrefl _ hlonger).elim
      · exact ih _ hy hlast

end Complete

theorem head_mirrors (r : Registry) (s : Scope) (head : Head) (base : Expr) (x : Referent)
    (hbase : head.expr? = some base) (hword : ∀ w ∈ literalWords, head ≠ .name w)
    (hx : r.denote s base = .ok x) : Mirrors x ((r.live s).resolveHead head) := by
  obtain ⟨x', hx', href⟩ | ⟨hnone, _⟩ := resolveHead_denote r s head base hbase hword
  · cases hx.symm.trans hx'
    rw [href]
    exact mirrors_toReference x
  · exact (hnone x hx).elim

/-- The resolver is in step with the interpreter from the head on, when that is none of the literal
words, and again from every call that the evaluator was asked for.  If from there on the catalog
offers every member that the segments read, the resolver finds the value of the whole. -/
theorem resolve_value_of_interpreted (r : Registry) (s : Scope) (line : String)
    (chain : AccessChain) (v : Value) (type : String) (k : Nat)
    (hsplit : splitChain line = .ok chain) (hhead : chain.head ≠ .topLevel)
    (heval : r.interpret s (chain.fragment (chain.segments.length - 1)) = .ok v)
    (htype : v.type? = some type) (hvoid : type ≠ TypeName.void)
    (hstart : k = 0 ∧ (∀ w ∈ ["true", "false", "null"], chain.head ≠ .name w) ∨
      chain.front k ∈ ((r.live s).resolve chain).asked)
    (hoffers : ∀ j (hj : j < chain.segments.length), k ≤ j →
      ∀ w, r.interpret s (chain.front j) = .ok w → r.Offers chain.segments[j] w) :
    ((r.live s).resolve chain).reference = .value v type := by
  obtain ⟨e, hparse, hy⟩ := (interpret_ok r s _ v).1 heval
  obtain ⟨base, hbase, hgrows⟩ := last_fragment_grows line chain e hsplit hhead hparse
  obtain ⟨rfl, hword⟩ | hasked := hstart
  · obtain ⟨x, hx⟩ := grows_denote r s _ _ _ _ hgrows _ hy
    have hm := head_mirrors r s chain.head base x hbase hword hx
    have hoff : ∀ j (hj : j < chain.segments.length) w,
        r.interpret s (AccessChain.extend chain.head.source (chain.segments.take j)) = .ok w →
          r.Offers chain.segments[j] w :=
      fun j hj w hw => hoffers j hj (Nat.zero_le j) w hw
    exact follow_mirrors r s x _ _ _ base e _ hgrows hx hy hm hoff type htype hvoid
  · obtain ⟨mid, hfront, hback⟩ := grows_split _ _ _ _ hgrows k
    obtain ⟨x, hx⟩ := grows_denote r s _ _ _ _ hback _ hy
    have hsplit := follow_append (r.live s) ((r.live s).resolveHead chain.head) chain.head.source
      (chain.segments.take k) (chain.segments.drop k)
    rw [List.take_append_drop] at hsplit
    unfold Environment.resolve at hasked ⊢
    rw [hsplit] at hasked ⊢
    have hmid : chain.front k ∈ ((r.live s).follow ((r.live s).resolveHead chain.head)
        chain.head.source (chain.segments.take k)).asked := by
      obtain hmid | hlater := List.mem_append.1 hasked
      · exact hmid
      · exact (Nat.lt_irrefl _ (follow_asked_longer r s _ _ _ _ hlater)).elim
    have hm := asked_mirrors r s x _ _ base mid _ hfront hx hmid
    refine follow_mirrors r s x _ _ _ mid e _ hback hx hy hm ?_ type htype hvoid
    intro j hj w hw
    change r.interpret s (AccessChain.extend (chain.front k) ((chain.segments.drop k).take j)) =
      .ok w at hw
    rw [front_add] at hw
    rw [List.length_drop] at hj
    rw [List.getElem_drop]
    exact hoffers (k + j) (by omega) (Nat.le_add_right k j) w hw

/-- The hidden field leads out of step, and the call behind it back. -/
theorem resolve_value_of_interpreted_label :
    boxRegistry.interpret boxScope "b.item.self().label" = .ok (.string "tag") ∧
      ((boxRegistry.live boxScope).resolve boxChain).asked = ["b.item.self()"] ∧
      ((boxRegistry.live boxScope).resolve boxChain).reference =
        .value (.string "tag") TypeName.string := by
  have heval : boxRegistry.interpret boxScope "b.item.self().label" = .ok (.string "tag") := by
    with_unfolding_all rfl
  have hasked : ((boxRegistry.live boxScope).resolve boxChain).asked = ["b.item.self()"] := by
    decide +kernel
  have hbox : boxRegistry.interpret boxScope "b.item.self()" =
      .ok (.object "p.Box" [("label", .string "tag")]) := by
    with_unfolding_all rfl
  have hlabel : (boxRegistry.overloads "p.Box" "label").isEmpty = true := by decide +kernel
  refine ⟨heval, hasked, ?_⟩
  refine resolve_value_of_interpreted boxRegistry boxScope _ boxChain _ _ 2 boxChain_split
    (by decide) heval rfl (by decide) (.inr ?_) ?_
  · rw [hasked]
    decide
  · intro j hj hk w hw type ht
    obtain rfl : j = 2 := Nat.le_antisymm (Nat.le_of_lt_succ hj) hk
    cases hbox.symm.trans hw
    cases ht
    exact ⟨by decide, fun _ => List.isEmpty_iff.1 hlabel⟩

/-- The interpreter finds a value in front of the name being typed, and the resolver does not. -/
def Registry.Misses (r : Registry) (s : Scope) (line : String) : Prop :=
  ∃ chain v type, splitChain line = .ok chain ∧ chain.head ≠ .topLevel ∧
    r.interpret s (chain.fragment (chain.segments.length - 1)) = .ok v ∧
    v.type? = some type ∧ type ≠ TypeName.void ∧
    ((r.live s).resolve chain).reference ≠ .value v type

theorem misses_of_reference (r : Registry) (s : Scope) (line : String) (chain : AccessChain)
    (source : String) (v : Value) (type : String) (current : Reference)
    (hsplit : splitChain line = .ok chain) (hhead : chain.head ≠ .topLevel)
    (hsource : chain.fragment (chain.segments.length - 1) = source)
    (heval : r.interpret s source = .ok v) (htype : v.type? = some type)
    (hvoid : type ≠ TypeName.void) (href : ((r.live s).resolve chain).reference = current)
    (hcurrent : current ≠ .value v type) : r.Misses s line := by
  subst hsource href
  exact ⟨chain, v, type, hsplit, hhead, heval, htype, hvoid, hcurrent⟩

/-- A literal word is a name to the resolver, a method hides a field from it, and nothing is a
member of type `void`. -/
theorem resolve_misses :
    boxRegistry.Misses boxScope "true." ∧ boxRegistry.Misses boxScope "b.item." ∧
      boxRegistry.Misses boxScope "u.go()." := by
  refine ⟨?_, ?_, ?_⟩
  · refine misses_of_reference _ _ _ ⟨0, .name "true", ⟨0, 4⟩, [], ""⟩ "true" (.boolean true)
      TypeName.boolean .unresolved (by decide +kernel) (by decide) (by decide) ?_ rfl (by decide)
      ?_ nofun
    all_goals with_unfolding_all rfl
  · refine misses_of_reference _ _ _ ⟨0, .name "b", ⟨0, 1⟩, [⟨"item", none, ⟨2, 6⟩⟩], ""⟩
      "b.item" (.object "p.Box" [("label", .string "tag")]) "p.Box" (.static "p.Box")
      (by decide +kernel) (by decide) (by decide) ?_ rfl (by decide) ?_ nofun
    all_goals with_unfolding_all rfl
  · refine misses_of_reference _ _ _ ⟨0, .name "u", ⟨0, 1⟩,
      [⟨"go", some ⟨"", ⟨5, 5⟩⟩, ⟨2, 6⟩⟩], ""⟩ "u.go()" (.string "x") TypeName.string .unresolved
      (by decide +kernel) (by decide) (by decide) ?_ rfl (by decide) ?_ nofun
    all_goals with_unfolding_all rfl

end ScriptConsole
