import ScriptConsole.Proofs.Chain.Typing
import ScriptConsole.Proofs.Completion.Matching

namespace ScriptConsole

theorem eq_of_sorted_labels {xs ys : List CompletionItem}
    (hxs : xs.Pairwise fun a b => a.label < b.label)
    (hys : ys.Pairwise fun a b => a.label < b.label) (h : ∀ i, i ∈ xs ↔ i ∈ ys) : xs = ys := by
  have hnodup {zs : List CompletionItem} (hzs : zs.Pairwise fun a b => a.label < b.label) :
      zs.Nodup := by
    refine hzs.imp ?_
    rintro a _ hlt rfl
    exact String.lt_irrefl _ hlt
  refine ((List.perm_ext_iff_of_nodup (hnodup hxs) (hnodup hys)).2 h).eq_of_pairwise ?_ hxs hys
  intro a b _ _ hab hba
  exact (String.lt_asymm hab hba).elim

theorem candidates_narrow (members : MemberSet) {stem longer : String}
    (h : stem.toList <+: longer.toList) :
    candidates members longer =
      (candidates members stem).filter fun i => longer.toList.isPrefixOf i.label.toList := by
  refine eq_of_sorted_labels (sorted_candidates members longer)
    ((sorted_candidates members stem).filter _) ?_
  intro i
  rw [List.mem_filter, mem_candidates, mem_candidates, List.isPrefixOf_iff_prefix]
  constructor
  · rintro ⟨m, hm, hlonger, rfl⟩
    exact ⟨⟨m, hm, h.trans hlonger, rfl⟩, hlonger⟩
  · rintro ⟨⟨m, hm, _, rfl⟩, hlonger⟩
    exact ⟨m, hm, hlonger, rfl⟩

namespace Environment
variable (env : Environment) (config : CompletionConfig)

/-- Where the number of items is not limited, those of a line with a longer name behind the same
chain are some of those of the line, and the evaluator is asked the same. -/
theorem completion_narrow (hlimit : config.limit = none) {line longer : String}
    {chain : AccessChain} (h : splitChain line = .ok chain) {name : String}
    (hlonger : splitChain longer = .ok { chain with stem := name })
    (hname : chain.stem.toList <+: name.toList) :
    env.completion config longer longer.utf8ByteSize =
      ⟨(env.items config line line.utf8ByteSize).filter fun i =>
          name.toList.isPrefixOf i.label.toList,
        (env.completion config line line.utf8ByteSize).asked⟩ := by
  have hcap (items : List CompletionItem) : config.cap items = items := by
    rw [CompletionConfig.cap, hlimit]
  rw [items, env.completion_end config h, env.completion_end config hlonger, hcap, hcap,
    ← candidates_narrow _ hname]
  rfl

theorem mem_items_label (hlimit : config.limit = none) {line longer : String}
    {chain : AccessChain} (h : splitChain line = .ok chain) {i : CompletionItem}
    (hi : i ∈ env.items config line line.utf8ByteSize)
    (hlonger : splitChain longer = .ok { chain with stem := i.label }) :
    i ∈ env.items config longer longer.utf8ByteSize := by
  have hstem : chain.stem.toList <+: i.label.toList := by
    rw [items, env.completion_end config h] at hi
    obtain ⟨m, _, hm, rfl⟩ := (mem_candidates _ _ i).1 ((cap_sublist config _).subset hi)
    exact hm
  rw [items, env.completion_narrow config hlimit h hlonger hstem, List.mem_filter]
  exact ⟨hi, by simp⟩

/-- Typing on narrows the items of a line down to those whose labels begin with all that has been
typed, when their number is not limited, and asks the evaluator for the same sources.  An item whose
label is an identifier is offered again when the label stands in the place of the name. -/
theorem completion_continues (hlimit : config.limit = none) (line : String) (chain : AccessChain)
    (h : splitChain line = .ok chain) (more : String) (hmore : Continues chain.stem more) :
    env.items config (line ++ more) (line ++ more).utf8ByteSize =
        (env.items config line line.utf8ByteSize).filter
          (fun i => (chain.stem ++ more).toList.isPrefixOf i.label.toList) ∧
      (env.completion config (line ++ more) (line ++ more).utf8ByteSize).asked =
        (env.completion config line line.utf8ByteSize).asked ∧
      ∃ front, line = front ++ chain.stem ∧
        ∀ i ∈ env.items config line line.utf8ByteSize, isIdentifier i.label = true →
          i ∈ env.items config (front ++ i.label) (front ++ i.label).utf8ByteSize := by
  have hlonger := splitChain_continues h hmore
  have hname : chain.stem.toList <+: (chain.stem ++ more).toList := by simp
  have hnarrow := env.completion_narrow config hlimit h hlonger hname
  obtain ⟨front, hline, hfront⟩ := splitChain_front h
  refine ⟨by rw [items, hnarrow], by rw [hnarrow], front, hline, ?_⟩
  intro i hi hlabel
  exact env.mem_items_label config hlimit h hi (hfront i.label hlabel)

theorem completion_continues_keyword :
    ⟨"importClass", .keyword, none⟩ ∈ exampleEnvironment.items {} ("f(1); im" ++ "portC")
      ("f(1); im" ++ "portC").utf8ByteSize := by
  have hsplit : splitChain "f(1); im" = .ok ⟨6, .topLevel, ⟨6, 6⟩, [], "im"⟩ := by decide +kernel
  have hmore : Continues "im" "portC" :=
    ⟨by decide, List.all_eq_true.1 (by decide), fun h => absurd h (by decide)⟩
  obtain ⟨hitems, _⟩ :=
    exampleEnvironment.completion_continues {} rfl _ _ hsplit "portC" hmore
  rw [hitems, List.mem_filter, items, completion_end _ _ hsplit]
  have hkeyword := (Scope.empty.keyword_mem_topLevel "importClass").2 (by decide)
  exact ⟨(mem_candidates _ _ _).2 ⟨_, hkeyword, by decide, rfl⟩, by decide⟩

end Environment
end ScriptConsole
