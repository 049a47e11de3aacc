import ScriptConsole.Proofs.Chain.Layout
import ScriptConsole.Proofs.Resolution.Cases
import ScriptConsole.Proofs.Resolution.Offered

namespace ScriptConsole

theorem extend_longer (base : String) (seg : Segment) (segs : List Segment) :
    base.length < (AccessChain.extend base (seg :: segs)).length := by
  induction segs generalizing base seg with
  | nil =>
    simp only [AccessChain.extend, List.foldl_cons, List.foldl_nil, String.length_append]
    have hdot : ".".length = 1 := rfl
    omega
  | cons next segs ih =>
    have hfirst : base.length < (AccessChain.extend base [seg]).length := by
      simp only [AccessChain.extend, List.foldl_cons, List.foldl_nil, String.length_append]
      have hdot : ".".length = 1 := rfl
      omega
    exact Nat.lt_trans hfirst (ih (AccessChain.extend base [seg]) next)

theorem front_add (c : AccessChain) (k j : Nat) :
    AccessChain.extend (c.front k) ((c.segments.drop k).take j) = c.front (k + j) := by
  simp only [AccessChain.front, AccessChain.extend]
  rw [← List.foldl_append, ← List.take_add]

theorem fragment_longer (c : AccessChain) {i j : Nat} (hij : i < j) (hj : j < c.segments.length) :
    (c.fragment i).length < (c.fragment j).length := by
  obtain ⟨n, rfl⟩ : ∃ n, j = i + 1 + n := ⟨j - (i + 1), by omega⟩
  rw [fragment_eq_front c i (by omega), fragment_eq_front c _ hj,
    show i + 1 + n + 1 = i + 1 + (n + 1) from rfl, ← front_add c (i + 1) (n + 1)]
  have hdrop : c.segments.drop (i + 1) = c.segments[i + 1] :: c.segments.drop (i + 2) :=
    List.drop_eq_getElem_cons (by omega)
  rw [hdrop, List.take_succ_cons]
  exact extend_longer _ _ _

theorem follow_unresolved (env : Environment) (source : String) (segs : List Segment) :
    env.follow .unresolved source segs = ⟨.unresolved, []⟩ := by
  cases segs <;> rfl

theorem follow_append (env : Environment) (current : Reference) (source : String)
    (front back : List Segment) :
    env.follow current source (front ++ back) =
      ⟨(env.follow (env.follow current source front).reference
          (AccessChain.extend source front) back).reference,
        (env.follow current source front).asked ++
          (env.follow (env.follow current source front).reference
            (AccessChain.extend source front) back).asked⟩ := by
  induction front generalizing current source with
  | nil => rfl
  | cons seg front ih =>
    cases hres : current.isUnresolved with
    | true => simp [Environment.follow, hres, follow_unresolved]
    | false =>
      simp only [List.cons_append, Environment.follow, hres, Bool.false_eq_true, if_false, ih,
        List.append_assoc]
      rfl

namespace Environment
variable (env : Environment)

theorem follow_singleton (current : Reference) (source : String) (segment : Segment) :
    env.follow current source [segment] =
      env.step current segment (AccessChain.extend source [segment]) := by
  unfold follow
  split
  · next h =>
    cases current with
    | unresolved => exact (env.step_unresolved _ _).symm
    | topLevel | value _ _ | static _ | union _ | package _ => cases h
  · simp [follow]

/-- Two evaluators that answer alike what the one is asked lead the same way. -/
theorem follow_congr (other : Environment) (hcatalog : other.catalog = env.catalog)
    (current : Reference) (source : String) (segments : List Segment)
    (h : ∀ x ∈ (env.follow current source segments).asked,
      other.evaluator other.scope x = env.evaluator env.scope x) :
    other.follow current source segments = env.follow current source segments := by
  induction segments generalizing current source with
  | nil => rfl
  | cons segment segments ih =>
    rw [follow, follow]
    split
    · rfl
    · next hres =>
      rw [follow, if_neg hres] at h
      dsimp only at h ⊢
      rw [step_congr env other hcatalog _ _ _ fun x hx => h x (List.mem_append_left _ hx),
        ih _ _ fun x hx => h x (List.mem_append_right _ hx)]

variable (chain : AccessChain)

/-- What the chain in front of segment `k` denotes. -/
def reached (k : Nat) : Reference :=
  (env.follow (env.resolveHead chain.head) chain.head.source (chain.segments.take k)).reference

theorem reached_zero : env.reached chain 0 = env.resolveHead chain.head := rfl

theorem reached_length :
    env.reached chain chain.segments.length = (env.resolve chain).reference := by
  rw [reached, List.take_length, resolve]

variable {chain}

theorem follow_take_succ {k : Nat} (hk : k < chain.segments.length) :
    env.follow (env.resolveHead chain.head) chain.head.source (chain.segments.take (k + 1)) =
      ⟨(env.step (env.reached chain k) chain.segments[k] (chain.fragment k)).reference,
        (env.follow (env.resolveHead chain.head) chain.head.source
          (chain.segments.take k)).asked ++
          (env.step (env.reached chain k) chain.segments[k] (chain.fragment k)).asked⟩ := by
  have hsource : AccessChain.extend (AccessChain.extend chain.head.source (chain.segments.take k))
      [chain.segments[k]] = chain.fragment k := by
    rw [fragment_eq_front chain k hk, AccessChain.front, List.take_succ_eq_append_getElem hk]
    simp only [AccessChain.extend, List.foldl_append]
  rw [List.take_succ_eq_append_getElem hk, follow_append, follow_singleton, hsource]
  rfl

theorem reached_succ {k : Nat} (hk : k < chain.segments.length) :
    env.reached chain (k + 1) =
      (env.step (env.reached chain k) chain.segments[k] (chain.fragment k)).reference := by
  rw [reached, follow_take_succ env hk]

theorem reached_unresolved {k m : Nat} (hkm : k ≤ m) (hm : m ≤ chain.segments.length)
    (h : env.reached chain k = .unresolved) : env.reached chain m = .unresolved := by
  induction hkm with
  | refl => exact h
  | step _ ih => rw [env.reached_succ hm, ih (Nat.le_of_lt hm), step_unresolved]

/-- The evaluator is asked for segment `i`: this is a call, and what stands in front of it has a
type with a method of that name. -/
structure Consults (chain : AccessChain) (i : Nat) : Prop where
  inside : i < chain.segments.length
  call : chain.segments[i].isCall = true
  typed : (env.reached chain i).IsTyped
  method : ∃ type ∈ (env.reached chain i).types, ∃ sig,
    env.catalog.signature type chain.segments[i].name = some sig ∧ sig.kind = .method

theorem consults_iff {i : Nat} (hi : i < chain.segments.length) :
    env.Consults chain i ↔ chain.segments[i].isCall = true ∧
      env.methods (env.reached chain i) chain.segments[i].name ≠ [] := by
  constructor
  · intro h
    obtain ⟨type, htype, sig, hsig, hkind⟩ := h.method
    exact ⟨h.call, List.ne_nil_of_mem (env.mem_methods.2 ⟨hkind, type, htype, hsig⟩)⟩
  · intro h
    obtain ⟨sig, hsig⟩ := List.exists_mem_of_ne_nil _ h.2
    obtain ⟨hkind, type, htype, hfound⟩ := env.mem_methods.1 hsig
    refine ⟨hi, h.1, ?_, type, htype, sig, hfound, hkind⟩
    cases hcurrent : env.reached chain i with
    | value _ _ | static _ | union _ => trivial
    | topLevel | package _ | unresolved =>
      rw [hcurrent] at htype
      cases htype

theorem Consults.not_unresolved {env : Environment} {i : Nat} (h : env.Consults chain i) :
    env.reached chain i ≠ .unresolved := by
  intro hnone
  have htyped := h.typed
  rw [hnone] at htyped
  exact htyped

theorem step_of_consults {i : Nat} (hi : i < chain.segments.length) (h : env.Consults chain i) :
    env.step (env.reached chain i) chain.segments[i] (chain.fragment i) =
      ⟨ofOutcome (env.methods (env.reached chain i) chain.segments[i].name)
        (env.evaluator env.scope (chain.fragment i)), [chain.fragment i]⟩ := by
  obtain ⟨hcall, hmethods⟩ := (env.consults_iff hi).1 h
  rw [step, if_pos hcall, env.followCall_of_ne_nil _ hmethods]

theorem asked_of_not_consults {i : Nat} (hi : i < chain.segments.length)
    (h : ¬ env.Consults chain i) :
    (env.step (env.reached chain i) chain.segments[i] (chain.fragment i)).asked = [] := by
  unfold step
  split
  · next hcall =>
    have hnone : env.methods (env.reached chain i) chain.segments[i].name = [] := by
      by_contra hne
      exact h ((env.consults_iff hi).2 ⟨hcall, hne⟩)
    rw [env.followCall_nil _ hnone]
  · rfl

/-- The evaluator is asked for the fragments of these segments, from left to right. -/
theorem asked_front (k : Nat) (hk : k ≤ chain.segments.length) :
    ∃ calls : List Nat, calls.Pairwise (· < ·) ∧
      (∀ i, i ∈ calls ↔ i < k ∧ env.Consults chain i) ∧
      (env.follow (env.resolveHead chain.head) chain.head.source (chain.segments.take k)).asked =
        calls.map chain.fragment := by
  induction k with
  | zero => exact ⟨[], List.Pairwise.nil, by simp, rfl⟩
  | succ k ih =>
    obtain ⟨calls, hsorted, hmem, hasked⟩ := ih (Nat.le_of_lt hk)
    by_cases h : env.Consults chain k
    · refine ⟨calls ++ [k], ?_, ?_, ?_⟩
      · refine List.pairwise_append.2 ⟨hsorted, List.pairwise_singleton _ _, ?_⟩
        intro i hi j hj
        obtain rfl := List.mem_singleton.1 hj
        exact ((hmem i).1 hi).1
      · intro i
        rw [List.mem_append, hmem, List.mem_singleton, Nat.lt_succ_iff_lt_or_eq, or_and_right]
        exact or_congr_right ⟨fun hik => ⟨hik, hik ▸ h⟩, And.left⟩
      · rw [env.follow_take_succ hk, hasked, env.step_of_consults hk h, List.map_append]
        rfl
    · refine ⟨calls, hsorted, ?_, ?_⟩
      · intro i
        rw [hmem, Nat.lt_succ_iff_lt_or_eq, or_and_right]
        have hlast : ¬ (i = k ∧ env.Consults chain i) := fun hik => h (hik.1 ▸ hik.2)
        exact (or_iff_left hlast).symm
      · rw [env.follow_take_succ hk, hasked, env.asked_of_not_consults hk h, List.append_nil]

variable (chain)

theorem asked_resolve :
    ∃ calls : List Nat, calls.Pairwise (· < ·) ∧ (∀ i, i ∈ calls ↔ env.Consults chain i) ∧
      (env.resolve chain).asked = calls.map chain.fragment := by
  obtain ⟨calls, hsorted, hmem, hasked⟩ := env.asked_front chain.segments.length (Nat.le_refl _)
  refine ⟨calls, hsorted, ?_, ?_⟩
  · intro i
    rw [hmem]
    exact and_iff_right_of_imp Consults.inside
  · rw [List.take_length] at hasked
    exact hasked

end Environment
end ScriptConsole
