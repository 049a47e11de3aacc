import ScriptConsole.Completion.Line
import ScriptConsole.Proofs.Resolution.Failure
import ScriptConsole.Proofs.Resolution.Live

namespace ScriptConsole

/-- How a completion of a chain came about. -/
structure Traced (env : Environment) (chain : AccessChain) (done : Completion) : Prop where
  /-- The evaluator was asked for the calls of known methods only, from left to right. -/
  asked : ∃ calls : List Nat, calls.Pairwise (· < ·) ∧ (∀ i, i ∈ calls ↔ env.Consults chain i) ∧
    done.asked = calls.map chain.fragment
  once : done.asked.Nodup
  /-- What stops the chain. -/
  failure : ∀ k (hk : k < chain.segments.length), env.reached chain (k + 1) = .unresolved ↔
    env.Fails (env.reached chain k) chain.segments[k] (chain.fragment k)
  /-- Where it has stopped nothing more is asked, and nothing is offered. -/
  terminal : ∀ k ≤ chain.segments.length, env.reached chain k = .unresolved →
    (∀ i, env.Consults chain i → i < k) ∧ done.items = []

namespace Environment
variable (env : Environment) (config : CompletionConfig)

/-- No source is asked for twice, as later ones are longer. -/
theorem nodup_asked (chain : AccessChain) : (env.resolve chain).asked.Nodup := by
  obtain ⟨calls, hsorted, hmem, hasked⟩ := env.asked_resolve chain
  rw [hasked]
  refine List.Pairwise.map _ (fun _ _ hne => hne) (hsorted.imp_of_mem ?_)
  intro i j _ hj hij heq
  have hlonger := fragment_longer chain hij ((hmem j).1 hj).inside
  rw [heq] at hlonger
  exact Nat.lt_irrefl _ hlonger

theorem candidates_unresolved (scope : Scope) (catalog : Catalog) (stem : String) :
    candidates (Reference.unresolved.members scope catalog) stem = [] := by
  have hnone : (Reference.unresolved.members scope catalog).members = [] := rfl
  simp [candidates, hnone]

theorem traced_completeLine {line : String} {chain : AccessChain}
    (h : splitChain line = .ok chain) : Traced env chain (env.completeLine config line) := by
  rw [completeLine, h]
  refine ⟨env.asked_resolve chain, env.nodup_asked chain, ?_, ?_⟩
  · intro k hk
    rw [env.reached_succ hk, step_unresolved_iff]
  · intro k hk hnone
    constructor
    · intro i hi
      by_contra hki
      exact hi.not_unresolved
        (env.reached_unresolved (Nat.not_lt.1 hki) (Nat.le_of_lt hi.inside) hnone)
    · have hlast := env.reached_unresolved hk (Nat.le_refl _) hnone
      rw [reached_length] at hlast
      dsimp only
      rw [hlast, candidates_unresolved]
      unfold CompletionConfig.cap
      cases config.limit with
      | none => rfl
      | some n => exact List.take_nil

theorem completeLine_congr (other : Evaluator) (line : String)
    (h : ∀ source ∈ (env.completeLine config line).asked,
      other env.scope source = env.evaluator env.scope source) :
    { env with evaluator := other }.completeLine config line = env.completeLine config line := by
  unfold completeLine at h ⊢
  cases hsplit : splitChain line with
  | error _ => rfl
  | ok chain =>
    rw [hsplit] at h
    have hresolve : { env with evaluator := other }.resolve chain = env.resolve chain :=
      follow_congr env { env with evaluator := other } rfl _ _ _ h
    simp only [hresolve]

/-- The evaluator is asked for the sources of calls whose method a type in front has, from left to
right and for each once.  Behind a segment that cannot be resolved nothing is asked and nothing
offered.  The answers to what was asked settle the completion. -/
theorem asked_in_completion (input : String) (cursor : Nat) :
    (∀ error, splitChain (lineAt input cursor) = .error error →
      env.completion config input cursor = ⟨[], []⟩) ∧
    (∀ chain, splitChain (lineAt input cursor) = .ok chain →
      Traced env chain (env.completion config input cursor)) ∧
    ∀ other : Evaluator,
      (∀ source ∈ (env.completion config input cursor).asked,
        other env.scope source = env.evaluator env.scope source) →
      { env with evaluator := other }.completion config input cursor =
        env.completion config input cursor := by
  refine ⟨?_, ?_, ?_⟩
  · intro error h
    rw [completion, completeLine, h]
  · intro chain h
    exact env.traced_completeLine config h
  · intro other h
    exact env.completeLine_congr config other _ h

end Environment

/-- Evaluates the one call that is asked for in front of an unknown method. -/
def guarded : Evaluator := fun scope source =>
  if source = "b.item.self()" then boxRegistry.interpret scope source
  else .error (.thrown "not asked for")

theorem asked_in_completion_unknown :
    ((boxRegistry.live boxScope).completion {} "b.item.self().gone().self()." 28).asked =
        ["b.item.self()"] ∧
      { boxRegistry.live boxScope with evaluator := guarded }.completion {}
          "b.item.self().gone().self()." 28 =
        (boxRegistry.live boxScope).completion {} "b.item.self().gone().self()." 28 := by
  have hasked : ((boxRegistry.live boxScope).completion {} "b.item.self().gone().self()."
      28).asked = ["b.item.self()"] := by
    decide +kernel
  refine ⟨hasked, ((boxRegistry.live boxScope).asked_in_completion {} _ 28).2.2 guarded ?_⟩
  intro source hsource
  rw [hasked] at hsource
  obtain rfl := List.mem_singleton.1 hsource
  exact if_pos rfl

end ScriptConsole
