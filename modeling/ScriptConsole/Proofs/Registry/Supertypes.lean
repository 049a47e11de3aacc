import Mathlib.Order.Lattice.Nat
import ScriptConsole.Registry.Supertypes

namespace ScriptConsole

theorem Registry.name_of_class? {r : Registry} {name : String} {c : ClassDecl}
    (h : r.class? name = some c) : c.name = name := by
  simpa using List.find?_some h

/-- `n` steps from a class to a direct supertype, through registered classes only, lead from `type`
to the class. -/
inductive Registry.Reaches (r : Registry) (type : String) : ClassDecl → Nat → Prop where
  | start (c : ClassDecl) (h : r.class? type = some c) : Reaches r type c 0
  | step (c d : ClassDecl) (n : Nat) (name : String) (hc : Reaches r type c n)
      (hname : name ∈ c.supertypes) (hd : r.class? name = some d) : Reaches r type d (n + 1)

/-- The least number of steps that lead from `type` to the class. -/
noncomputable def Registry.distance (r : Registry) (type : String) (c : ClassDecl) : Nat :=
  sInf {n | r.Reaches type c n}

section Walk
variable {r : Registry} {type : String}

theorem reaches_distance {c : ClassDecl} {n : Nat} (h : r.Reaches type c n) :
    r.Reaches type c (r.distance type c) :=
  Nat.sInf_mem (s := {n | r.Reaches type c n}) ⟨n, h⟩

theorem distance_le {c : ClassDecl} {n : Nat} (h : r.Reaches type c n) : r.distance type c ≤ n :=
  Nat.sInf_le h

theorem reaches_class? {c : ClassDecl} {n : Nat} (h : r.Reaches type c n) :
    r.class? c.name = some c := by
  cases h with
  | start _ h => rwa [Registry.name_of_class? h]
  | step _ _ _ _ _ _ h => rwa [Registry.name_of_class? h]

theorem distance_step {c d : ClassDecl} {n : Nat} {name : String} (hc : r.Reaches type c n)
    (hname : name ∈ c.supertypes) (hd : r.class? name = some d) :
    r.distance type d ≤ r.distance type c + 1 :=
  distance_le (.step c d _ name (reaches_distance hc) hname hd)

/-- On a shortest way every class is as far away as the steps to it. -/
theorem exists_nearer {d : ClassDecl} {n k : Nat} (hd : r.Reaches type d n)
    (hk : r.distance type d = k + 1) :
    ∃ c name, r.Reaches type c k ∧ r.distance type c = k ∧ name ∈ c.supertypes ∧
      r.class? name = some d := by
  have hway := reaches_distance hd
  rw [hk] at hway
  cases hway with
  | step c _ _ name hc hname hd =>
    have hle := distance_le hc
    have hstep := distance_step hc hname hd
    exact ⟨c, name, hc, by omega, hname, hd⟩

/-- Those of the registered classes whose names are not in `met`. -/
def Unmet (r : Registry) (met : List String) (unseen : List ClassDecl) : Prop :=
  ∀ name, unseen.find? (·.name == name) = if name ∈ met then none else r.class? name

theorem find?_filter_ne (cs : List ClassDecl) (name other : String) :
    (cs.filter (·.name != name)).find? (·.name == other) =
      if other = name then none else cs.find? (·.name == other) := by
  rw [List.find?_filter]
  split
  · next h =>
    subst h
    simp
  · next h =>
    congr 1
    funext c
    by_cases hc : c.name = other
    · simp [hc, h]
    · simp [hc]

theorem unmet_filter {met : List String} {unseen : List ClassDecl} (h : Unmet r met unseen)
    (name : String) : Unmet r (met ++ [name]) (unseen.filter (·.name != name)) := by
  intro other
  rw [find?_filter_ne, h other]
  by_cases ho : other = name <;> simp [ho]

/-- What looking names up among the classes not met finds: registered classes that were not met
before, each once, and all that the names denote. -/
structure Discovers (r : Registry) (met names : List String) (d : Discovery) : Prop where
  unmet : Unmet r (met ++ d.found.map ClassDecl.name) d.unseen
  distinct : met.Nodup → (met ++ d.found.map ClassDecl.name).Nodup
  found : ∀ c ∈ d.found, c.name ∉ met ∧ c.name ∈ names ∧ r.class? c.name = some c
  all : ∀ name ∈ names, ∀ c, r.class? name = some c → name ∈ met ++ d.found.map ClassDecl.name

theorem Discovers.skip {met names : List String} {d : Discovery} (h : Discovers r met names d)
    (name : String) (hname : ∀ c, r.class? name = some c → name ∈ met) :
    Discovers r met (name :: names) d := by
  refine ⟨h.unmet, h.distinct, ?_, ?_⟩
  · intro c hc
    obtain ⟨hmet, hmem, hclass⟩ := h.found c hc
    exact ⟨hmet, List.mem_cons_of_mem _ hmem, hclass⟩
  · rw [List.forall_mem_cons]
    exact ⟨fun c hc => List.mem_append_left _ (hname c hc), h.all⟩

/-- A class met for the first time is found in front of what the other names find. -/
theorem Discovers.meet {met names : List String} {d : Discovery} {c : ClassDecl}
    (h : Discovers r (met ++ [c.name]) names d) (hmet : c.name ∉ met)
    (hclass : r.class? c.name = some c) :
    Discovers r met (c.name :: names) ⟨c :: d.found, d.unseen⟩ := by
  have hcut : met ++ (c :: d.found).map ClassDecl.name =
      met ++ [c.name] ++ d.found.map ClassDecl.name := by simp
  refine ⟨?_, ?_, ?_, ?_⟩
  · rw [hcut]
    exact h.unmet
  · intro hdistinct
    rw [hcut]
    exact h.distinct (List.Nodup.append hdistinct (List.nodup_singleton _) (by simpa))
  · rw [List.forall_mem_cons]
    refine ⟨⟨hmet, List.mem_cons_self, hclass⟩, ?_⟩
    intro e he
    obtain ⟨hemet, hmem, heclass⟩ := h.found e he
    exact ⟨fun h => hemet (List.mem_append_left _ h), List.mem_cons_of_mem _ hmem, heclass⟩
  · rw [hcut, List.forall_mem_cons]
    exact ⟨fun _ _ => by simp, h.all⟩

theorem discover_discovers (met names : List String) (unseen : List ClassDecl)
    (h : Unmet r met unseen) : Discovers r met names (discover unseen names) := by
  induction names generalizing met unseen with
  | nil => exact ⟨by simpa [discover] using h, by simp [discover], by simp [discover], by simp⟩
  | cons name names ih =>
    have hname := h name
    rw [discover]
    split
    · next hnone =>
      refine (ih met unseen h).skip name ?_
      intro c hc
      by_contra hmet
      rw [hnone, if_neg hmet, hc] at hname
      cases hname
    · next c hsome =>
      obtain rfl : c.name = name := by simpa using List.find?_some hsome
      rw [hsome] at hname
      split at hname
      · cases hname
      · next hmet => exact (ih _ _ (unmet_filter h c.name)).meet hmet hname.symm

/-- A stage of the walk from `type`: `done` has been listed, `queue` has been met. -/
structure Stage (r : Registry) (type : String) (done queue unseen : List ClassDecl) : Prop where
  unmet : Unmet r ((done ++ queue).map ClassDecl.name) unseen
  distinct : ((done ++ queue).map ClassDecl.name).Nodup
  first : (done ++ queue).head? = r.class? type
  reached : ∀ c ∈ done ++ queue, ∃ n, r.Reaches type c n
  closed : ∀ c ∈ done, ∀ name ∈ c.supertypes, ∀ d, r.class? name = some d → d ∈ done ++ queue
  sorted : (done ++ queue).Pairwise fun c d => r.distance type c ≤ r.distance type d
  /-- The queue spans two levels at most. -/
  near : ∀ c ∈ queue.head?, ∀ d ∈ queue, r.distance type d ≤ r.distance type c + 1

theorem Stage.distance_lt {done queue unseen : List ClassDecl} {c : ClassDecl}
    (s : Stage r type done (c :: queue) unseen) (k : Nat) (d : ClassDecl) (n : Nat)
    (hd : r.Reaches type d n) (hk : r.distance type d = k) (hnew : d ∉ done ++ c :: queue) :
    r.distance type c < r.distance type d := by
  induction k generalizing d n with
  | zero =>
    have hway := reaches_distance hd
    rw [hk] at hway
    cases hway with
    | start _ h =>
      rw [← s.first] at h
      exact (hnew (List.mem_of_mem_head? h)).elim
  | succ k ih =>
    obtain ⟨p, name, hp, hpk, hname, hclass⟩ := exists_nearer hd hk
    rw [hk]
    by_cases hmet : p ∈ done ++ c :: queue
    · rcases List.mem_append.1 hmet with hdone | hqueue
      · exact (hnew (s.closed p hdone name hname d hclass)).elim
      · have hsorted := (List.pairwise_append.1 s.sorted).2.1
        rcases List.mem_cons.1 hqueue with rfl | hqueue
        · omega
        · have hle := (List.pairwise_cons.1 hsorted).1 p hqueue
          omega
    · have hlt := ih p k hp hpk hmet
      omega

/-- What has been met is one step behind the next class at most. -/
theorem Stage.distance_le_succ {done queue unseen : List ClassDecl} {c : ClassDecl}
    (s : Stage r type done (c :: queue) unseen) (e : ClassDecl) (he : e ∈ done ++ c :: queue) :
    r.distance type e ≤ r.distance type c + 1 := by
  rcases List.mem_append.1 he with hdone | hqueue
  · have hle := (List.pairwise_append.1 s.sorted).2.2 e hdone c List.mem_cons_self
    omega
  · exact s.near c rfl e hqueue

/-- What the next class leads to is one step behind it. -/
theorem Stage.distance_found {done queue unseen : List ClassDecl} {c e : ClassDecl}
    {d : Discovery} (s : Stage r type done (c :: queue) unseen)
    (hd : Discovers r ((done ++ c :: queue).map ClassDecl.name) c.supertypes d)
    (he : e ∈ d.found) :
    (∃ n, r.Reaches type e n) ∧ r.distance type e = r.distance type c + 1 := by
  obtain ⟨n, hc⟩ := s.reached c (by simp)
  obtain ⟨hmet, hname, hclass⟩ := hd.found e he
  have hreach : r.Reaches type e (n + 1) := .step c e n e.name hc hname hclass
  have hnew : e ∉ done ++ c :: queue := fun h => hmet (List.mem_map_of_mem h)
  have hlt := s.distance_lt _ e _ hreach rfl hnew
  have hle := distance_step hc hname hclass
  exact ⟨⟨_, hreach⟩, by omega⟩

/-- Listing the next class and meeting its supertypes keeps the walk in order. -/
theorem Stage.step {done queue unseen : List ClassDecl} {c : ClassDecl}
    (s : Stage r type done (c :: queue) unseen) :
    Stage r type (done ++ [c]) (queue ++ (discover unseen c.supertypes).found)
      (discover unseen c.supertypes).unseen := by
  have hd := discover_discovers (r := r) _ c.supertypes unseen s.unmet
  generalize discover unseen c.supertypes = d at hd
  have hcut : done ++ [c] ++ (queue ++ d.found) = done ++ c :: queue ++ d.found := by simp
  have hreached : ∀ e ∈ done ++ c :: queue ++ d.found, ∃ n, r.Reaches type e n := by
    intro e he
    rcases List.mem_append.1 he with hold | hfound
    · exact s.reached e hold
    · exact (s.distance_found hd hfound).1
  -- the new queue lies between the distance of `c` and the next one
  have hqueue : ∀ e ∈ queue ++ d.found,
      r.distance type c ≤ r.distance type e ∧ r.distance type e ≤ r.distance type c + 1 := by
    intro e he
    rcases List.mem_append.1 he with hqueue | hfound
    · have hsorted := (List.pairwise_append.1 s.sorted).2.1
      exact ⟨(List.pairwise_cons.1 hsorted).1 e hqueue, s.distance_le_succ e (by simp [hqueue])⟩
    · have hlevel := (s.distance_found hd hfound).2
      omega
  exact {
    unmet := by
      rw [hcut, List.map_append]
      exact hd.unmet
    distinct := by
      rw [hcut, List.map_append]
      exact hd.distinct s.distinct
    first := by
      rw [hcut, ← s.first]
      cases done <;> rfl
    reached := by
      rw [hcut]
      exact hreached
    closed := by
      rw [hcut]
      intro p hp name hname e he
      rcases List.mem_append.1 hp with hdone | hnext
      · exact List.mem_append_left _ (s.closed p hdone name hname e he)
      · obtain rfl := List.mem_singleton.1 hnext
        have hmem := hd.all name hname e he
        rw [← List.map_append] at hmem
        obtain ⟨e', he', rfl⟩ := List.mem_map.1 hmem
        obtain ⟨_, hreach⟩ := hreached e' he'
        cases he.symm.trans (reaches_class? hreach)
        exact he'
    sorted := by
      rw [hcut, List.pairwise_append]
      refine ⟨s.sorted, ?_, ?_⟩
      · refine List.pairwise_of_forall_mem_list ?_
        intro e he e' he'
        rw [(s.distance_found hd he).2, (s.distance_found hd he').2]
      · intro e he e' he'
        rw [(s.distance_found hd he').2]
        exact s.distance_le_succ e he
    near := by
      intro h hh e he
      have hfirst := (hqueue h (List.mem_of_mem_head? hh)).1
      have hlast := (hqueue e he).2
      omega }

theorem Stage.walk {done queue unseen : List ClassDecl} (s : Stage r type done queue unseen) :
    ∃ unseen', Stage r type (done ++ breadthFirst queue unseen) [] unseen' := by
  fun_induction breadthFirst queue unseen generalizing done with
  | case1 unseen => exact ⟨unseen, by simpa using s⟩
  | case2 unseen c queue d =>
    rename_i ih
    obtain ⟨unseen', h⟩ := ih s.step
    exact ⟨unseen', by simpa using h⟩

theorem stage_start {c : ClassDecl} (h : r.class? type = some c) :
    Stage r type [] [c] (r.classes.filter (·.name != type)) := by
  have hc : c.name = type := Registry.name_of_class? h
  have hreach : r.Reaches type c 0 := .start c h
  exact {
    unmet := by
      intro name
      rw [find?_filter_ne]
      simp [hc, Registry.class?]
    distinct := by simp
    first := h.symm
    reached := by simpa using ⟨0, hreach⟩
    closed := by simp
    sorted := by simp
    near := by simp }

/-- The classes that direct supertypes lead to from `type`: its own first, each once, and none in
front of a nearer one. -/
structure Registry.BreadthFirst (r : Registry) (type : String) (classes : List ClassDecl) :
    Prop where
  first : classes.head? = r.class? type
  distinct : (classes.map ClassDecl.name).Nodup
  mem_iff : ∀ c, c ∈ classes ↔ ∃ n, r.Reaches type c n
  sorted : classes.Pairwise fun c d => r.distance type c ≤ r.distance type d

/-- Nothing is left to be listed when the queue is empty. -/
theorem Stage.breadthFirst {done unseen : List ClassDecl} (s : Stage r type done [] unseen) :
    r.BreadthFirst type done := by
  obtain ⟨_, hdistinct, hfirst, hreached, hclosed, hsorted, _⟩ := s
  rw [List.append_nil] at hdistinct hfirst hreached hclosed hsorted
  refine ⟨hfirst, hdistinct, ?_, hsorted⟩
  intro c
  constructor
  · exact hreached c
  · rintro ⟨n, hc⟩
    induction hc with
    | start c h =>
      rw [← hfirst] at h
      exact List.mem_of_mem_head? h
    | step c d n name _ hname hd ih => exact hclosed c ih name hname d hd

theorem hierarchy_breadthFirst {c : ClassDecl} (h : r.class? type = some c) :
    r.BreadthFirst type (r.hierarchy type) := by
  rw [Registry.hierarchy, h]
  obtain ⟨_, s⟩ := (stage_start h).walk
  exact s.breadthFirst

end Walk

theorem hierarchy_subset (r : Registry) (type : String) : r.hierarchy type ⊆ r.classes := by
  intro c hc
  cases htype : r.class? type with
  | none =>
    rw [(r.hierarchy_eq_nil_iff type).2 htype] at hc
    cases hc
  | some d =>
    obtain ⟨_, hreach⟩ := ((hierarchy_breadthFirst htype).mem_iff c).1 hc
    exact List.mem_of_find?_eq_some (reaches_class? hreach)

end ScriptConsole
