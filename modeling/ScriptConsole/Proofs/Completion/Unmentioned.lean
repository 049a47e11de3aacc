import ScriptConsole.Proofs.Completion.Narrowing
import ScriptConsole.Proofs.Expr.Frame
import ScriptConsole.Proofs.Resolution.Live
import ScriptConsole.Proofs.Resolution.Shown
import ScriptConsole.Proofs.Resolution.Trace

namespace ScriptConsole

theorem ofValue_ne_topLevel (v : Value) : Reference.ofValue v ≠ .topLevel := by
  unfold Reference.ofValue
  split
  · nofun
  · split <;> nofun

theorem declared_ne_topLevel (found : List Signature) :
    Reference.declared found ≠ .topLevel := by
  unfold Reference.declared Reference.ofTypes
  split <;> nofun

/-- Behind a dot nothing stands at top level. -/
theorem step_ne_topLevel (env : Environment) (current : Reference) (segment : Segment)
    (source : String) : (env.step current segment source).reference ≠ .topLevel := by
  unfold Environment.step
  split
  · have hstep := env.callStep current segment.name source
    generalize env.followCall current segment.name source = next at hstep
    cases hstep with
    | unknown | refused => nofun
    | declared => exact declared_ne_topLevel _
    | value _ v => exact ofValue_ne_topLevel v
  · have hstep := env.fieldStep current segment.name
    generalize env.followField current segment.name = next at hstep
    cases hstep with
    | inner | subpackage | outside => nofun
    | read stored => exact ofValue_ne_topLevel stored
    | declared => exact declared_ne_topLevel _

theorem resolveHead_ne_topLevel (env : Environment) (head : Head) (h : head ≠ .topLevel) :
    env.resolveHead head ≠ .topLevel := by
  obtain ⟨_, referent, _, _, hhead⟩ | ⟨_, v, _, _, hhead⟩ | hhead :=
    env.resolveHead_cases head h
  · rw [hhead]
    cases referent with
    | value v => exact ofValue_ne_topLevel v
    | type name | package path => nofun
  · rw [hhead]
    exact ofValue_ne_topLevel v
  · rw [hhead]
    nofun

theorem resolve_ne_topLevel (env : Environment) (chain : AccessChain) (h : chain.head ≠ .topLevel) :
    (env.resolve chain).reference ≠ .topLevel := by
  have hreached (k : Nat) (hk : k ≤ chain.segments.length) : env.reached chain k ≠ .topLevel := by
    cases k with
    | zero => exact resolveHead_ne_topLevel env chain.head h
    | succ k =>
      rw [env.reached_succ hk]
      exact step_ne_topLevel env _ _ _
  rw [← env.reached_length]
  exact hreached _ (Nat.le_refl _)

/-- Only at top level does the scope have a say in the members. -/
theorem members_scope {current : Reference} (h : current ≠ .topLevel) (s s' : Scope)
    (catalog : Catalog) : current.members s' catalog = current.members s catalog := by
  cases current with
  | topLevel => exact (h rfl).elim
  | value _ _ | static _ | union _ | package _ | unresolved => rfl

section Chains
variable (r : Registry) (s : Scope) {n : String} (v : Value) {line : String} {chain : AccessChain}

theorem mentions_of_front (l : Layout line chain) (k : Nat) (name : String)
    (h : Mentions (chain.front k) name) : Mentions line name := by
  obtain ⟨t, ht, hkind, htext⟩ := h
  have hmem : t.shift (byteSize (spelling l.before)) ∈ l.front k := by
    rw [← l.tokenize_front k]
    exact List.mem_map_of_mem ht
  obtain ⟨rest, hrest⟩ := l.tokens_front k
  refine ⟨t.shift (byteSize (spelling l.before)), ?_, hkind, htext⟩
  rw [hrest]
  exact List.mem_append_right _ (List.mem_append_left _ hmem)

theorem resolveHead_bind (l : Layout line chain) (h : ¬ Mentions line n) :
    (r.live (s.bind n v)).resolveHead chain.head = (r.live s).resolveHead chain.head := by
  rw [l.head]
  unfold Token.head
  split
  · next hident =>
    have hne : n ≠ l.first.text := by
      rintro rfl
      refine h ⟨l.first, ?_, hident, rfl⟩
      rw [l.tokens]
      exact List.mem_append_right _ List.mem_cons_self
    simp only [Environment.resolveHead, Registry.live, resolve_bind s n v r.catalog _ hne]
  · rfl

theorem resolve_chain_bind (l : Layout line chain) (h : ¬ Mentions line n) :
    (r.live (s.bind n v)).resolve chain = (r.live s).resolve chain := by
  obtain ⟨calls, _, hmem, hasked⟩ := (r.live s).asked_resolve chain
  have hagree : ∀ x ∈ ((r.live s).resolve chain).asked,
      r.interpret (s.bind n v) x = r.interpret s x := by
    intro x hx
    rw [hasked] at hx
    obtain ⟨i, hi, rfl⟩ := List.mem_map.1 hx
    rw [fragment_eq_front chain i ((hmem i).1 hi).inside]
    exact interpret_bind r s n v _ fun hn => h (mentions_of_front l _ n hn)
  rw [Environment.resolve, resolveHead_bind r s v l h]
  exact Environment.follow_congr (r.live s) (r.live (s.bind n v)) rfl _ _ _ hagree

theorem completeLine_bind (config : CompletionConfig) (hsplit : splitChain line = .ok chain)
    (hhead : chain.head ≠ .topLevel) (h : ¬ Mentions line n) :
    (r.live (s.bind n v)).completeLine config line = (r.live s).completeLine config line := by
  obtain ⟨l⟩ := splitChain_layout line chain hsplit hhead
  have hmembers := members_scope (resolve_ne_topLevel (r.live s) chain hhead) s (s.bind n v)
    r.catalog
  rw [Environment.completeLine, Environment.completeLine, hsplit]
  dsimp only
  rw [resolve_chain_bind r s v l h]
  exact congrArg (fun members : MemberSet =>
    (⟨config.cap (candidates members chain.stem), _⟩ : Completion)) hmembers

end Chains

theorem get?_topLevel_bind (s : Scope) (n : String) (v : Value) (name : String) (h : n ≠ name) :
    (s.bind n v).topLevel.get? name = s.topLevel.get? name := by
  rw [get?_topLevel, get?_topLevel, binding?_bind, if_neg h]
  rfl

theorem mem_members_iff (set : MemberSet) (m : Member) :
    m ∈ set.members ↔ set.get? m.name = some m :=
  ⟨get?_of_mem set m, List.mem_of_find?_eq_some⟩

theorem candidates_topLevel_bind (s : Scope) (n : String) (v : Value) (stem : String) :
    (candidates (s.bind n v).topLevel stem).filter (·.label != n) =
      (candidates s.topLevel stem).filter (·.label != n) := by
  refine eq_of_sorted_labels ((sorted_candidates _ stem).filter _)
    ((sorted_candidates _ stem).filter _) ?_
  intro i
  rw [List.mem_filter, List.mem_filter, and_congr_left_iff]
  intro hlabel
  simp only [mem_candidates, mem_members_iff]
  refine exists_congr fun m => and_congr_left fun hm => ?_
  have hne : n ≠ m.name := by
    rintro rfl
    rw [← hm.2] at hlabel
    simp [CompletionItem.ofMember] at hlabel
  rw [get?_topLevel_bind s n v m.name hne]

/-- A new binding changes no source that does not contain its name, neither its value nor what is
offered behind it.  What is offered at top level changes in the item of that name only. -/
theorem unmentioned_binding (r : Registry) (s : Scope) (n : String) (v : Value) :
    (∀ source, ¬ Mentions source n →
      r.interpret (s.bind n v) source = r.interpret s source) ∧
    ∀ (config : CompletionConfig) (input : String) (cursor : Nat) (chain : AccessChain),
      splitChain (lineAt input cursor) = .ok chain →
      (chain.head ≠ .topLevel → ¬ Mentions (lineAt input cursor) n →
        (r.live (s.bind n v)).completion config input cursor =
          (r.live s).completion config input cursor) ∧
      (chain.head = .topLevel → config.limit = none →
        ((r.live (s.bind n v)).items config input cursor).filter (·.label != n) =
          ((r.live s).items config input cursor).filter (·.label != n)) := by
  refine ⟨interpret_bind r s n v, ?_⟩
  intro config input cursor chain hsplit
  constructor
  · intro hhead hline
    exact completeLine_bind r s v config hsplit hhead hline
  · intro hhead hlimit
    have htop (scope : Scope) : (r.live scope).items config input cursor =
        candidates scope.topLevel chain.stem := by
      have hresolve : ((r.live scope).resolve chain).reference = .topLevel := by
        rw [Environment.resolve, splitChain_topLevel _ chain hsplit hhead, hhead]
        rfl
      rw [Environment.items, Environment.completion, Environment.completeLine, hsplit]
      simp only [hresolve, CompletionConfig.cap, hlimit]
      rfl
    rw [htop, htop]
    exact candidates_topLevel_bind s n v chain.stem

/-- A binding in the place of a console statement: calls and items go on as before, except for the
item of the statement. -/
theorem unmentioned_binding_keyword :
    boxRegistry.interpret (boxScope.bind importClassKeyword .null) "b.item.self()" =
        boxRegistry.interpret boxScope "b.item.self()" ∧
      (boxRegistry.live (boxScope.bind importClassKeyword .null)).completion {} "b.item.self()." 14 =
        (boxRegistry.live boxScope).completion {} "b.item.self()." 14 ∧
      ((boxRegistry.live (boxScope.bind importClassKeyword .null)).items {} "im" 2).filter
          (·.label != importClassKeyword) =
        ((boxRegistry.live boxScope).items {} "im" 2).filter (·.label != importClassKeyword) := by
  obtain ⟨hvalue, hitems⟩ := unmentioned_binding boxRegistry boxScope importClassKeyword .null
  have hself : splitChain (lineAt "b.item.self()." 14) =
      .ok ⟨0, .name "b", ⟨0, 1⟩, boxChain.segments.take 2, ""⟩ := by
    decide +kernel
  have himport : splitChain (lineAt "im" 2) = .ok ⟨0, .topLevel, ⟨0, 0⟩, [], "im"⟩ := by
    decide +kernel
  refine ⟨hvalue _ (by decide +kernel), ?_, ?_⟩
  · exact (hitems {} _ 14 _ hself).1 nofun (by decide +kernel)
  · exact (hitems {} _ 2 _ himport).2 rfl rfl

end ScriptConsole
