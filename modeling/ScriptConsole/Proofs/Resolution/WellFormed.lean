import ScriptConsole.Proofs.Chain.Spans
import ScriptConsole.Proofs.Resolution.Trace
import ScriptConsole.Proofs.Session.Consistency

namespace ScriptConsole

/-- What the part of a chain that `source` spells can refer to.  No type is `void`, and types are
several only when they differ. -/
inductive Reference.WellFormed (source : String) : Reference → Prop where
  /-- Nothing stands in front of the name being typed. -/
  | topLevel (hsource : source = "") : WellFormed source .topLevel
  | value (v : Value) (type : String) (htype : v.type? = some type) (hvoid : type ≠ TypeName.void) :
      WellFormed source (.value v type)
  | static (type : String) (hvoid : type ≠ TypeName.void) : WellFormed source (.static type)
  | union (types : List String) (hseveral : 2 ≤ types.length) (hdistinct : types.Nodup)
      (hvoid : TypeName.void ∉ types) : WellFormed source (.union types)
  | package : WellFormed source (.package source)
  | unresolved : WellFormed source .unresolved

theorem ofValue_wellFormed (source : String) (v : Value) :
    (Reference.ofValue v).WellFormed source := by
  unfold Reference.ofValue
  split
  · exact .unresolved
  · next type htype =>
    split
    · exact .unresolved
    · next hvoid => exact .value v type htype hvoid

theorem ofTypes_wellFormed (source : String) {types : List String} (hdistinct : types.Nodup) :
    (Reference.ofTypes types).WellFormed source := by
  have hkept : (types.filter (· != TypeName.void)).Nodup := hdistinct.filter _
  have hvoid : TypeName.void ∉ types.filter (· != TypeName.void) := by simp
  unfold Reference.ofTypes
  split
  · exact .unresolved
  · next type hone =>
    rw [hone, List.mem_singleton] at hvoid
    exact .static type (Ne.symm hvoid)
  · next hnil hone =>
    refine .union _ ?_ hkept hvoid
    -- neither none nor a single type is left
    rcases hleft : types.filter (· != TypeName.void) with _ | ⟨type, _ | ⟨other, rest⟩⟩
    · exact (hnil hleft).elim
    · exact (hone type hleft).elim
    · simp

theorem declared_wellFormed (source : String) (found : List Signature) :
    (Reference.declared found).WellFormed source :=
  ofTypes_wellFormed source (nodup_eraseDups _)

/-- A class that a name refers to is registered: it was imported, or found in a package. -/
theorem resolve_type_registered {r : Registry} {s : Scope} (hs : s.Consistent r) {name : String}
    {q : QualifiedName} (h : s.resolve r.catalog name = some (.type q)) : r.hasClass q = true := by
  unfold Scope.resolve at h
  split at h
  · cases h
  · split at h
    · next q' hfound =>
      cases h
      rcases Option.or_eq_some_iff.1 hfound with himported | ⟨_, hpackage⟩
      · exact (hs.imported _ (Entries.mem_of_get? himported)).1
      · exact List.find?_some hpackage
    · split at h <;> cases h

theorem resolve_package_name {s : Scope} {catalog : Catalog} {name : String} {path : QualifiedName}
    (h : s.resolve catalog name = some (.package path)) : path = name := by
  unfold Scope.resolve at h
  split at h
  · cases h
  · split at h
    · cases h
    · split at h <;> cases h
      rfl

theorem extend_field {source : String} {segment : Segment} (hsource : source ≠ "")
    (hfield : segment.isCall = false) :
    AccessChain.extend source [segment] = QualifiedName.join source segment.name := by
  have hname : segment.source = segment.name := by
    unfold Segment.source
    cases hargs : segment.arguments with
    | none => rfl
    | some args => simp [Segment.isCall, hargs] at hfield
  rw [← String.toList_inj, QualifiedName.toList_join hsource]
  simp [AccessChain.extend, hname]

namespace Environment
variable (env : Environment)

theorem followCall_wellFormed (current : Reference) (name source text : String) :
    (env.followCall current name source).reference.WellFormed text := by
  have hstep := env.callStep current name source
  generalize env.followCall current name source = next at hstep ⊢
  cases hstep with
  | unknown _ | refused _ _ _ _ => exact .unresolved
  | declared _ _ => exact declared_wellFormed text _
  | value _ v _ _ => exact ofValue_wellFormed text v

section Typed
variable (hvoid : env.catalog.hasClass TypeName.void = false)
include hvoid

theorem ne_void_of_hasClass {q : QualifiedName} (h : env.catalog.hasClass q = true) :
    q ≠ TypeName.void := by
  rintro rfl
  cases hvoid.symm.trans h

theorem followField_wellFormed {current : Reference} {source : String}
    (hcurrent : current.WellFormed source) (name : String) :
    (env.followField current name).WellFormed (QualifiedName.join source name) := by
  have hstep := env.fieldStep current name
  generalize env.followField current name = next at hstep ⊢
  cases hstep with
  | inner path _ hclass => exact .static _ (env.ne_void_of_hasClass hvoid hclass)
  | subpackage path hfront _ =>
    subst hfront
    cases hcurrent
    exact .package
  | outside _ _ _ _ => exact .unresolved
  | read stored _ => exact ofValue_wellFormed _ stored
  | declared _ _ => exact declared_wellFormed _ _

theorem step_wellFormed {current : Reference} {source : String} (hsource : source ≠ "")
    (hcurrent : current.WellFormed source) (segment : Segment) (asked : String) :
    (env.step current segment asked).reference.WellFormed
      (AccessChain.extend source [segment]) := by
  unfold step
  split
  · exact env.followCall_wellFormed current segment.name asked _
  · next hfield =>
    rw [extend_field hsource (by simpa using hfield)]
    exact env.followField_wellFormed hvoid hcurrent segment.name

end Typed

variable {env}

theorem resolveHead_wellFormed {r : Registry} (hcatalog : env.catalog = r.catalog)
    (hs : env.scope.Consistent r) (hvoid : r.hasClass TypeName.void = false) (head : Head) :
    (env.resolveHead head).WellFormed head.source := by
  by_cases htop : head = .topLevel
  · subst htop
    exact .topLevel rfl
  · rcases env.resolveHead_cases head htop with ⟨name, x, rfl, hx, href⟩ | ⟨_, v, _, _, href⟩ | href
    · rw [href]
      cases x with
      | value v => exact ofValue_wellFormed name v
      | type q =>
        rw [hcatalog] at hx
        refine .static q ?_
        rintro rfl
        cases hvoid.symm.trans (resolve_type_registered hs hx)
      | package path =>
        obtain rfl := resolve_package_name hx
        exact .package
    · rw [href]
      exact ofValue_wellFormed _ v
    · rw [href]
      exact .unresolved

end Environment

theorem front_ne_empty {line : String} {chain : AccessChain} (hsplit : splitChain line = .ok chain)
    (hhead : chain.head ≠ .topLevel) (k : Nat) : chain.front k ≠ "" := by
  obtain ⟨l⟩ := splitChain_layout line chain hsplit hhead
  have hlt := l.first_extent.2.2
  intro hempty
  have hspelling := l.spelling_front k
  rw [hempty, Layout.front, spelling_cons] at hspelling
  have hnil : l.first.text.toList = [] := (List.append_eq_nil_iff.1 hspelling.symm).1
  rw [Token.stop, hnil] at hlt
  exact Nat.lt_irrefl _ hlt

theorem reached_wellFormed {env : Environment} {r : Registry} (hcatalog : env.catalog = r.catalog)
    (hs : env.scope.Consistent r) (hvoid : r.hasClass TypeName.void = false) {line : String}
    {chain : AccessChain} (hsplit : splitChain line = .ok chain) (k : Nat) :
    (env.reached chain k).WellFormed (chain.front k) := by
  induction k with
  | zero => exact Environment.resolveHead_wellFormed hcatalog hs hvoid chain.head
  | succ k ih =>
    by_cases hk : k < chain.segments.length
    · have hhead : chain.head ≠ .topLevel := by
        intro htop
        rw [splitChain_topLevel line chain hsplit htop] at hk
        cases hk
      have hfront : chain.front (k + 1) =
          AccessChain.extend (chain.front k) [chain.segments[k]] := by
        rw [← front_add chain k 1, List.drop_eq_getElem_cons hk]
        rfl
      have hknown : env.catalog.hasClass TypeName.void = false := by rw [hcatalog]; exact hvoid
      rw [env.reached_succ hk, hfront]
      exact env.step_wellFormed hknown (front_ne_empty hsplit hhead k) ih _ _
    · have hall : chain.segments.take (k + 1) = chain.segments.take k := by
        rw [List.take_of_length_le (by omega), List.take_of_length_le (by omega)]
      simpa only [Environment.reached, AccessChain.front, hall] using ih

/-- In a session over classes of which none is called `void`, every initial part of a chain refers
to something well formed, whatever evaluator is asked.  Nothing stands in front exactly where there
is no head, and then there are no segments.  The source of an initial part is what the line holds
from the start of the chain. -/
theorem resolved_wellFormed (r : Registry) (hvoid : r.hasClass TypeName.void = false) (s : Session)
    (hs : s.Reachable r) (evaluator : Evaluator) (line : String) (chain : AccessChain)
    (hsplit : splitChain line = .ok chain) (k : Nat) :
    let env : Environment := ⟨s.scope, r.catalog, evaluator⟩
    (env.reached chain k).WellFormed (chain.front k) ∧
      (env.reached chain k = .topLevel ↔ chain.head = .topLevel) ∧
      (chain.head = .topLevel → chain.segments = []) ∧
      ∃ stop, Span.Holds ⟨chain.start, stop⟩ line (chain.front k) := by
  intro env
  have hformed : (env.reached chain k).WellFormed (chain.front k) :=
    reached_wellFormed rfl hs.consistent hvoid hsplit k
  have hnone := splitChain_topLevel line chain hsplit
  refine ⟨hformed, ⟨?_, ?_⟩, hnone, ?_⟩
  · intro htop
    rw [htop] at hformed
    cases hformed with
    | topLevel hsource =>
      by_contra hhead
      exact front_ne_empty hsplit hhead k hsource
  · intro hhead
    rw [Environment.reached, hnone hhead, List.take_nil, hhead]
    rfl
  · by_cases hhead : chain.head = .topLevel
    · have hempty : chain.front k = "" := by
        rw [AccessChain.front, hnone hhead, List.take_nil, hhead]
        rfl
      rw [hempty]
      exact ⟨_, (stem_holds line chain hsplit hhead).2.2.front⟩
    · obtain ⟨l⟩ := splitChain_layout line chain hsplit hhead
      exact ⟨_, l.holds_front k⟩

/-- Two overloads of a method return values of different types, and a third returns nothing. -/
def overloadedRegistry : Registry :=
  .build [.type { name := "p.Maker", methods := [
    { name := "make", returnType := "p.A", isStatic := true },
    { name := "make", returnType := "void", arity := .exact 1, isStatic := true },
    { name := "make", returnType := "p.B", arity := .exact 2, isStatic := true }] }]

theorem resolved_wellFormed_union :
    let s := (Session.new overloadedRegistry {}).perform (.importPackage "p")
    let env : Environment := ⟨s.scope, overloadedRegistry.catalog, Evaluator.disabled⟩
    ∃ chain, splitChain "x = Maker.make()." = .ok chain ∧
      env.reached chain 1 = .union ["p.A", "p.B"] ∧
      (env.reached chain 1).WellFormed "Maker.make()" := by
  intro s env
  have hsplit : splitChain "x = Maker.make()." = .ok ⟨4, .name "Maker", ⟨4, 9⟩,
      [⟨"make", some ⟨"", ⟨15, 15⟩⟩, ⟨10, 16⟩⟩], ""⟩ := by
    decide +kernel
  have hs : s.Reachable overloadedRegistry := .perform _ _ (.new {})
  refine ⟨_, hsplit, by with_unfolding_all rfl, ?_⟩
  exact (resolved_wellFormed overloadedRegistry (by decide +kernel) s hs .disabled _ _ hsplit 1).1

end ScriptConsole
