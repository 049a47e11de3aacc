import ScriptConsole.Proofs.Resolution.Live
import ScriptConsole.Session

namespace ScriptConsole

/-- What can be done to a session.  Completion leaves it as it is. -/
inductive Command where
  | importClass (q : QualifiedName)
  | importPackage (path : QualifiedName)
  | bind (name : String) (v : Value)
  | execute (line : String)
  | configure (config : CompletionConfig)

/-- What a session over `r` can do to its scope at once. -/
inductive Scope.Effect (r : Registry) (s : Scope) : Scope → Prop where
  | none : Effect r s s
  | bind (name : String) (v : Value) (h : isIdentifier name = true) : Effect r s (s.bind name v)
  | importClass (q : QualifiedName) (h : r.hasClass q = true) : Effect r s (s.importClass q)
  | importPackage (path : QualifiedName) (h : r.isPackage path = true) :
      Effect r s (s.importPackage path)

namespace Session

def perform (s : Session) : Command → Session
  | .importClass q => (s.importClass q).2
  | .importPackage path => (s.importPackage path).2
  | .bind name v => (s.bind name v).2
  | .execute line => (s.execute line).2
  | .configure config => { s with config }

/-- The sessions over a registry that come up in use. -/
inductive Reachable (r : Registry) : Session → Prop where
  | new (config : CompletionConfig) : Reachable r (new r config)
  | perform (s : Session) (command : Command) (h : Reachable r s) : Reachable r (s.perform command)

/-- An operation has failed without a trace, with an error of which `fails` holds, or has succeeded
and left a result and a scope of which `post` holds. -/
inductive Atomic {α : Type} (s : Session) (fails : SessionError → Prop) (post : α → Scope → Prop) :
    Outcome α → Prop where
  | failed (error : SessionError) (h : fails error) : Atomic s fails post (.error error, s)
  | done (a : α) (scope : Scope) (h : post a scope) :
      Atomic s fails post (.ok a, { s with scope })

variable (s : Session)

theorem importClass_atomic (q : String) :
    s.Atomic (· = .unknownClass q)
      (fun _ scope => s.registry.hasClass q = true ∧ scope = s.scope.importClass q)
      (s.importClass q) := by
  unfold importClass
  split
  · next h => exact .done _ _ ⟨h, rfl⟩
  · exact .failed _ rfl

theorem importPackage_atomic (path : String) :
    s.Atomic (· = .unknownPackage path)
      (fun _ scope => s.registry.isPackage path = true ∧ scope = s.scope.importPackage path)
      (s.importPackage path) := by
  unfold importPackage
  split
  · next h => exact .done _ _ ⟨h, rfl⟩
  · exact .failed _ rfl

theorem bind_atomic (name : String) (v : Value) :
    s.Atomic (fun error => error = .invalidIdentifier name ∧ isIdentifier name = false)
      (fun _ scope => isIdentifier name = true ∧ scope = s.scope.bind name v) (s.bind name v) := by
  unfold bind
  split
  · next h => exact .done _ _ ⟨h, rfl⟩
  · next h => exact .failed _ ⟨rfl, by simpa using h⟩

/-- `t` has the registry of `s` and at most one change in the scope. -/
structure Steps (s t : Session) : Prop where
  registry : t.registry = s.registry
  scope : Scope.Effect s.registry s.scope t.scope

theorem steps_refl : s.Steps s := ⟨rfl, .none⟩

theorem Atomic.steps {α : Type} {s : Session} {fails : SessionError → Prop}
    {post : α → Scope → Prop} {o : Outcome α} (h : s.Atomic fails post o)
    (heffect : ∀ a scope, post a scope → Scope.Effect s.registry s.scope scope) : s.Steps o.2 := by
  cases h with
  | failed _ _ => exact s.steps_refl
  | done a scope hpost => exact ⟨rfl, heffect a scope hpost⟩

theorem importClass_steps (q : String) : s.Steps (s.importClass q).2 := by
  refine (s.importClass_atomic q).steps ?_
  rintro _ _ ⟨hknown, rfl⟩
  exact .importClass q hknown

theorem importPackage_steps (path : String) : s.Steps (s.importPackage path).2 := by
  refine (s.importPackage_atomic path).steps ?_
  rintro _ _ ⟨hknown, rfl⟩
  exact .importPackage path hknown

theorem bind_steps (name : String) (v : Value) : s.Steps (s.bind name v).2 := by
  refine (s.bind_atomic name v).steps ?_
  rintro _ _ ⟨hname, rfl⟩
  exact .bind name v hname

theorem runImport_steps (statement : String) (args : List Expr) :
    s.Steps (s.runImport statement args).2 := by
  unfold runImport
  split
  · exact s.steps_refl
  · next target _ =>
    split
    · exact s.importClass_steps target
    · exact s.importPackage_steps target

theorem run_steps (statement : Statement) : s.Steps (s.run statement).2 := by
  unfold run
  split
  · next target e =>
    split
    · exact s.steps_refl
    · next v _ => exact s.bind_steps target v
  · next function args =>
    split
    · exact s.runImport_steps function args
    · exact s.steps_refl
  · exact s.steps_refl

theorem execute_steps (line : String) : s.Steps (s.execute line).2 := by
  unfold execute
  split
  · exact s.steps_refl
  · next statement _ => exact s.run_steps statement

theorem perform_steps (command : Command) : s.Steps (s.perform command) := by
  cases command with
  | importClass q => exact s.importClass_steps q
  | importPackage path => exact s.importPackage_steps path
  | bind name v => exact s.bind_steps name v
  | execute line => exact s.execute_steps line
  | configure config => exact ⟨rfl, .none⟩

theorem foldl_addRoot (roots : List Member) (scope : Scope) :
    roots.foldl (fun scope root => scope.addRoot root.name) scope =
      { scope with roots := (roots.map Member.name).foldl Scope.appendNew scope.roots } := by
  induction roots generalizing scope with
  | nil => rfl
  | cons root roots ih =>
    rw [List.foldl_cons, ih]
    rfl

theorem new_scope (r : Registry) (config : CompletionConfig) :
    ∃ roots, (new r config).scope = { Scope.empty with roots } :=
  ⟨_, foldl_addRoot _ _⟩

theorem environment_eq : s.environment = s.registry.live s.scope := rfl

variable {s} {r : Registry}

theorem Reachable.registry_eq (h : Reachable r s) : s.registry = r := by
  induction h with
  | new config => rfl
  | perform s command _ ih => exact (s.perform_steps command).registry.trans ih

end Session
end ScriptConsole
