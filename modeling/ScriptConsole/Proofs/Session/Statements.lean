import ScriptConsole.Proofs.Session.Reachable
import ScriptConsole.Proofs.Success
import ScriptConsole.Proofs.Token.Longest
import ScriptConsole.Registry.Standard

namespace ScriptConsole

/-- What a line assigns to can be bound. -/
theorem isIdentifier_of_assign {line target : String} {e : Expr}
    (h : parseStatement line = .ok (.assign target e)) : isIdentifier target = true := by
  unfold parseStatement at h
  split at h
  · next name sign rest htokens =>
    split at h
    · next hkinds =>
      obtain ⟨_, _, heq⟩ := (map_ok_iff _ _ _).1 h
      cases heq
      have hmem : name ∈ significantTokens line := by simp [htokens]
      exact isIdentifier_of_ident (List.mem_filter.1 hmem).1 hkinds.1
    · obtain ⟨_, _, heq⟩ := (map_ok_iff _ _ _).1 h
      cases heq
  · obtain ⟨_, _, heq⟩ := (map_ok_iff _ _ _).1 h
    cases heq

/-- `name` has got `value`, in its old place or at the end; the entries of other names are the same,
in the same order. -/
structure Entries.ChangedAt {α : Type} (name : String) (value : α) (before after : Entries α) :
    Prop where
  stored : after.get? name = some value
  others : after.filter (·.1 != name) = before.filter (·.1 != name)
  names : after.names = if name ∈ before.names then before.names else before.names ++ [name]

theorem changedAt_set {α : Type} (entries : Entries α) (name : String) (value : α) :
    Entries.ChangedAt name value entries (entries.set name value) := by
  refine ⟨?_, Entries.filter_set entries name value, Entries.names_set entries name value⟩
  rw [Entries.get?_set, if_pos rfl]

/-- What a statement that yields `v` makes of the scope: an assignment changes one binding, an import
adds to the imports, and any other expression changes nothing. -/
inductive Scope.Ran (r : Registry) (s : Scope) : Statement → Value → Scope → Prop where
  | assign (target : String) (e : Expr) (v : Value) (bindings : Entries Value)
      (hvalue : r.evalExpr s e = .ok v) (h : s.bindings.ChangedAt target v bindings) :
      Ran r s (.assign target e) v { s with bindings }
  | importClass (args : List Expr) (q : QualifiedName) (importedClasses : Entries QualifiedName)
      (htarget : Session.importTarget? args = some q) (hknown : r.hasClass q = true)
      (h : s.importedClasses.ChangedAt (QualifiedName.simple q) q importedClasses) :
      Ran r s (.expr (.call importClassKeyword args)) .void { s with importedClasses }
  | importPackage (args : List Expr) (path : QualifiedName)
      (htarget : Session.importTarget? args = some path) (hknown : r.isPackage path = true) :
      Ran r s (.expr (.call importPackageKeyword args)) .void
        { s with importedPackages :=
            if path ∈ s.importedPackages then s.importedPackages
            else s.importedPackages ++ [path] }
  | evaluate (e : Expr) (v : Value) (hvalue : r.evalExpr s e = .ok v)
      (hplain : ∀ args, e ≠ .call importClassKeyword args ∧ e ≠ .call importPackageKeyword args) :
      Ran r s (.expr e) v s

namespace Session

variable (s : Session)

/-- The statement has failed without a trace, and not because a name cannot be bound, or has run. -/
def Settles (statement : Statement) (o : Outcome Value) : Prop :=
  s.Atomic (fun error => ∀ name, error ≠ .invalidIdentifier name)
    (s.scope.Ran s.registry statement) o

theorem Atomic.yielding {α : Type} {s : Session} {fails fails' : SessionError → Prop}
    {post : α → Scope → Prop} {o : Outcome α} (h : s.Atomic fails post o) (v : Value)
    {post' : Value → Scope → Prop} (hfails : ∀ error, fails error → fails' error)
    (hpost : ∀ a scope, post a scope → post' v scope) :
    s.Atomic fails' post' (yielding v o) := by
  cases h with
  | failed error h => exact .failed error (hfails error h)
  | done a scope h => exact .done v scope (hpost a scope h)

theorem runImport_settles (function : String) (args : List Expr)
    (h : function = importClassKeyword ∨ function = importPackageKeyword) :
    s.Settles (.expr (.call function args)) (s.runImport function args) := by
  unfold runImport
  split
  · exact .failed _ nofun
  · next target htarget =>
    split
    · next hclass =>
      subst hclass
      refine (s.importClass_atomic target).yielding .void (by rintro _ rfl; exact nofun) ?_
      rintro _ _ ⟨hknown, rfl⟩
      exact .importClass args target _ htarget hknown (changedAt_set _ _ _)
    · next hclass =>
      obtain rfl := h.resolve_left hclass
      refine (s.importPackage_atomic target).yielding .void (by rintro _ rfl; exact nofun) ?_
      rintro _ _ ⟨hknown, rfl⟩
      exact .importPackage args target htarget hknown

theorem evaluate_cases (e : Expr) :
    (∃ error, s.evaluate e = .error (.eval error)) ∨
      ∃ v, s.evaluate e = .ok v ∧ s.registry.evalExpr s.scope e = .ok v := by
  unfold evaluate
  cases s.registry.evalExpr s.scope e with
  | error error => exact .inl ⟨error, rfl⟩
  | ok v => exact .inr ⟨v, rfl, rfl⟩

theorem assign_settles (target : String) (htarget : isIdentifier target = true) (e : Expr) :
    s.Settles (.assign target e) (s.run (.assign target e)) := by
  rcases s.evaluate_cases e with ⟨error, heval⟩ | ⟨v, heval, hvalue⟩
  · rw [run, heval]
    exact .failed _ nofun
  · rw [run, heval]
    refine (s.bind_atomic target v).yielding v ?_ ?_
    · rintro _ ⟨_, hbad⟩
      cases htarget.symm.trans hbad
    · rintro _ _ ⟨_, rfl⟩
      exact .assign target e v _ hvalue (changedAt_set _ _ _)

theorem evaluate_settles (e : Expr)
    (hplain : ∀ args, e ≠ .call importClassKeyword args ∧ e ≠ .call importPackageKeyword args) :
    s.Settles (.expr e) (s.evaluate e, s) := by
  rcases s.evaluate_cases e with ⟨error, heval⟩ | ⟨v, heval, hvalue⟩
  · rw [heval]
    exact .failed _ nofun
  · rw [heval]
    exact .done v s.scope (.evaluate e v hvalue hplain)

theorem expr_settles (e : Expr) : s.Settles (.expr e) (s.run (.expr e)) := by
  cases e with
  | call function args =>
    rw [run]
    split
    · next himport => exact s.runImport_settles function args himport
    · next hplain =>
      refine s.evaluate_settles _ ?_
      intro args'
      constructor
      · rintro ⟨rfl, _⟩
        exact hplain (.inl rfl)
      · rintro ⟨rfl, _⟩
        exact hplain (.inr rfl)
  | literal _ | name _ | field _ _ | invoke _ _ _ => exact s.evaluate_settles _ (by simp)

theorem run_settles (statement : Statement)
    (htarget : ∀ target e, statement = .assign target e → isIdentifier target = true) :
    s.Settles statement (s.run statement) := by
  cases statement with
  | assign target e => exact s.assign_settles target (htarget target e rfl) e
  | expr e => exact s.expr_settles e

theorem run_plain (e : Expr)
    (hplain : ∀ args, e ≠ .call importClassKeyword args ∧ e ≠ .call importPackageKeyword args) :
    s.run (.expr e) = (s.evaluate e, s) := by
  cases e with
  | call function args =>
    have himport : ¬ (function = importClassKeyword ∨ function = importPackageKeyword) := by
      rintro (rfl | rfl)
      · exact (hplain args).1 rfl
      · exact (hplain args).2 rfl
    rw [run, if_neg himport]
  | literal _ | name _ | field _ _ | invoke _ _ _ => rfl

/-- A statement with something to do to the scope succeeds. -/
theorem run_of_ran {statement : Statement} {v : Value} {scope : Scope}
    (h : s.scope.Ran s.registry statement v scope)
    (htarget : ∀ target e, statement = .assign target e → isIdentifier target = true) :
    (s.run statement).1 = .ok v := by
  have heval : ∀ e, s.registry.evalExpr s.scope e = .ok v → s.evaluate e = .ok v := by
    intro e hvalue
    rw [evaluate, hvalue]
    rfl
  cases h with
  | assign target e _ bindings hvalue _ =>
    rw [run, heval e hvalue]
    dsimp only
    rw [bind, if_pos (htarget target e rfl)]
    rfl
  | importClass args q _ hq hknown _ =>
    rw [run, if_pos (.inl rfl), runImport, hq]
    dsimp only
    rw [if_pos rfl, importClass, if_pos hknown]
    rfl
  | importPackage args path hpath hknown =>
    rw [run, if_pos (.inr rfl), runImport, hpath]
    dsimp only
    rw [if_neg (by decide), importPackage, if_pos hknown]
    rfl
  | evaluate e _ hvalue hplain =>
    rw [s.run_plain e hplain]
    exact heval _ hvalue

/-- A line that fails leaves the session as it is, and never fails for a bad name.  One that succeeds
is a statement, which changes in the scope only what it names, and nothing else in the session; and
a statement that can do so succeeds. -/
theorem execute_atomic (line : String) :
    (∀ error, (s.execute line).1 = .error error →
      (s.execute line).2 = s ∧ ∀ name, error ≠ .invalidIdentifier name) ∧
    (∀ v, (s.execute line).1 = .ok v → ∃ statement scope, parseStatement line = .ok statement ∧
      (s.execute line).2 = { s with scope } ∧ s.scope.Ran s.registry statement v scope) ∧
    ∀ statement v scope, parseStatement line = .ok statement →
      s.scope.Ran s.registry statement v scope → (s.execute line).1 = .ok v := by
  cases hparse : parseStatement line with
  | error error =>
    have hexecute : s.execute line = (.error (.parse error), s) := by rw [execute, hparse]
    rw [hexecute]
    refine ⟨?_, nofun, nofun⟩
    rintro _ ⟨⟩
    exact ⟨rfl, nofun⟩
  | ok statement =>
    have hexecute : s.execute line = s.run statement := by rw [execute, hparse]
    have htarget : ∀ target e, statement = .assign target e → isIdentifier target = true :=
      fun target e h => isIdentifier_of_assign (h ▸ hparse)
    rw [hexecute, ← and_assoc]
    constructor
    · have hrun := s.run_settles statement htarget
      generalize s.run statement = outcome at hrun
      cases hrun with
      | failed error hname =>
        refine ⟨?_, nofun⟩
        rintro _ ⟨⟩
        exact ⟨rfl, hname⟩
      | done v scope h =>
        refine ⟨nofun, ?_⟩
        rintro _ ⟨⟩
        exact ⟨statement, scope, rfl, rfl, h⟩
    · rintro _ v scope ⟨⟩ hran
      exact s.run_of_ran hran htarget

def boundSession : Session := (new .standard {}).perform (.bind "n" (.string "one"))

/-- An import of an unknown class leaves no trace, and an assignment replaces the binding. -/
theorem execute_atomic_standard :
    (boundSession.execute "importClass(n)").2 = boundSession ∧
      ∃ statement scope, (boundSession.execute "n = n.length()").2 = { boundSession with scope } ∧
        boundSession.scope.Ran boundSession.registry statement (.integer 3) scope := by
  have hfails : (boundSession.execute "importClass(n)").1 = .error (.unknownClass "n") := by
    with_unfolding_all rfl
  have hassigns : (boundSession.execute "n = n.length()").1 = .ok (.integer 3) := by
    with_unfolding_all rfl
  obtain ⟨statement, scope, _, hscope, hran⟩ :=
    (execute_atomic boundSession "n = n.length()").2.1 _ hassigns
  exact ⟨((execute_atomic boundSession "importClass(n)").1 _ hfails).1, statement, scope, hscope,
    hran⟩

end Session
end ScriptConsole
