import ScriptConsole.Proofs.Resolution.Shown
import ScriptConsole.Proofs.Session.Agreement
import ScriptConsole.Proofs.Session.Statements

namespace ScriptConsole

theorem Entries.ChangedAt.get?_other {α : Type} {name : String} {value : α}
    {before after : Entries α} (h : ChangedAt name value before after) {other : String}
    (hne : other ≠ name) : after.get? other = before.get? other := by
  have hfilter (entries : Entries α) : entries.get? other =
      ((entries.filter (·.1 != name)).find? (·.1 == other)).map Prod.snd := by
    rw [get?_eq_find?, List.find?_filter]
    congr 2
    funext e
    by_cases he : e.1 = other <;> simp [he, hne]
  rw [hfilter, hfilter, h.others]

namespace Session

/-- The command binds `name` to `v`, by itself or as an assignment that yields `v`. -/
inductive Binds (s : Session) (name : String) (v : Value) : Command → Prop where
  | bind (h : (s.bind name v).1 = .ok ()) : Binds s name v (.bind name v)
  | assign (line : String) (e : Expr) (hline : parseStatement line = .ok (.assign name e))
      (h : (s.execute line).1 = .ok v) : Binds s name v (.execute line)

variable {s t : Session} {name : String} {v : Value} {command : Command}

theorem Binds.changedAt (h : s.Binds name v command) :
    s.scope.bindings.ChangedAt name v (s.perform command).scope.bindings := by
  cases h with
  | bind h =>
    have hbind := s.bind_atomic name v
    rw [perform]
    generalize s.bind name v = outcome at h hbind
    cases hbind with
    | failed _ _ => cases h
    | done _ scope hdone =>
      obtain ⟨_, rfl⟩ := hdone
      exact changedAt_set _ _ _
  | assign line e hline h =>
    have hexecute : s.execute line = s.run (.assign name e) := by rw [execute, hline]
    have hrun := s.run_settles (.assign name e) fun target e h =>
      isIdentifier_of_assign (h ▸ hline)
    rw [perform, hexecute]
    rw [hexecute] at h
    generalize s.run (.assign name e) = outcome at h hrun
    cases hrun with
    | failed _ _ => cases h
    | done w scope hran =>
      cases h
      cases hran with
      | assign _ _ _ bindings _ hchanged => exact hchanged

theorem bindings_perform (h : ∀ name v, ¬ s.Binds name v command) :
    (s.perform command).scope.bindings = s.scope.bindings := by
  cases command with
  | importClass q =>
    rw [perform, importClass]
    split <;> rfl
  | importPackage path =>
    rw [perform, importPackage]
    split <;> rfl
  | bind name v =>
    rw [perform]
    have hunbound : (s.bind name v).1 ≠ .ok () := fun hok => h name v (.bind hok)
    have hbind := s.bind_atomic name v
    generalize s.bind name v = outcome at hunbound hbind
    cases hbind with
    | failed _ _ => rfl
    | done _ _ _ => exact (hunbound rfl).elim
  | execute line =>
    rw [perform]
    cases hparse : parseStatement line with
    | error error => rw [execute, hparse]
    | ok statement =>
      have hexecute : s.execute line = s.run statement := by rw [execute, hparse]
      have hunbound : ∀ name e, statement = .assign name e → ∀ v, (s.run statement).1 ≠ .ok v := by
        rintro name e rfl v hok
        exact h name v (.assign line e hparse (hexecute ▸ hok))
      have hrun := s.run_settles statement fun target e h => isIdentifier_of_assign (h ▸ hparse)
      rw [hexecute]
      generalize s.run statement = outcome at hunbound hrun
      cases hrun with
      | failed _ _ => rfl
      | done v scope hran =>
        cases hran with
        | assign target e _ _ _ _ => exact (hunbound target e rfl v rfl).elim
        | importClass _ _ _ _ _ _ | importPackage _ _ _ _ | evaluate _ _ _ _ => rfl
  | configure config => rfl

/-- A binding stays as long as no command binds its name. -/
theorem binding?_perform (h : ∀ v, ¬ s.Binds name v command) :
    (s.perform command).scope.binding? name = s.scope.binding? name := by
  by_cases hbinds : ∃ other w, s.Binds other w command
  · obtain ⟨other, w, hbinds⟩ := hbinds
    have hne : name ≠ other := by
      rintro rfl
      exact h w hbinds
    exact hbinds.changedAt.get?_other hne
  · rw [Scope.binding?, bindings_perform fun other w hother => hbinds ⟨other, w, hother⟩]
    rfl

/-- `t` comes after `s` by commands none of which binds `name`. -/
def Keeps (name : String) : Session → Session → Prop :=
  Relation.ReflTransGen fun s t =>
    ∃ command, (∀ v, ¬ s.Binds name v command) ∧ t = s.perform command

theorem Keeps.binding? (h : Keeps name s t) : t.scope.binding? name = s.scope.binding? name := by
  induction h with
  | refl => rfl
  | tail _ hstep ih =>
    obtain ⟨command, hkeeps, rfl⟩ := hstep
    exact (binding?_perform hkeeps).trans ih

theorem Binds.isIdentifier (h : s.Binds name v command) : isIdentifier name = true := by
  cases h with
  | bind h =>
    rw [Session.bind] at h
    split at h
    · assumption
    · cases h
  | assign line e hline _ => exact isIdentifier_of_assign hline

theorem execute_name (hname : isIdentifier name = true) (hword : name ∉ ["true", "false", "null"])
    (hv : s.scope.binding? name = some v) : s.execute name = (.ok v, s) := by
  have hprint : (Expr.name name).print = name := rfl
  have hdeep : (Expr.name name).deepest 0 ≤ maxDepth := by simp [Expr.deepest, maxDepth]
  have heval : s.evaluate (.name name) = .ok v := by
    rw [evaluate, Registry.evalExpr, denote_bound hv]
    rfl
  rw [← hprint, execute_print s _ (.name name hname hword) hdeep (by simp), heval]

theorem print_literalWord {word : String} {l : Literal} (h : literalWord? word = some l) :
    l.print = word := by
  unfold literalWord? at h
  split_ifs at h with htrue hfalse hnull
  · cases h
    exact htrue.symm
  · cases h
    exact hfalse.symm
  · cases h
    exact hnull.symm

theorem execute_word {word : String} {l : Literal} (h : literalWord? word = some l) :
    s.execute word = (.ok l.toValue, s) := by
  have hprint : (Expr.literal l).print = word := print_literalWord h
  have hdeep : (Expr.literal l).deepest 0 ≤ maxDepth := by simp [Expr.deepest, maxDepth]
  rw [← hprint, execute_print s _ (.literal l) hdeep (by simp)]
  rfl

/-- What has been bound to a name, by itself or by an assignment, is read back by a line with the
name, now and until the name is bound again.  The words that are literals are read as these,
whatever is bound to them. -/
theorem execute_of_binds (s t : Session) (name : String) (v : Value) (command : Command)
    (hbinds : s.Binds name v command) (hkeeps : Keeps name (s.perform command) t) :
    (name ∉ ["true", "false", "null"] → t.execute name = (.ok v, t)) ∧
      ∀ l, literalWord? name = some l → t.execute name = (.ok l.toValue, t) := by
  constructor
  · intro hword
    have hv : t.scope.binding? name = some v := hkeeps.binding?.trans hbinds.changedAt.stored
    exact execute_name hbinds.isIdentifier hword hv
  · intro l hl
    exact execute_word hl

/-- A binding read back past a failed assignment to its own name and the binding of another. -/
theorem execute_of_binds_standard :
    let s := (new .standard {}).perform (.execute "n = 'one'.length()")
    let t := (s.perform (.execute "n = n.missing")).perform (.bind "m" (.string "two"))
    t.execute "n" = (.ok (.integer 3), t) := by
  intro s t
  obtain ⟨e, hline⟩ : ∃ e, parseStatement "n = 'one'.length()" = .ok (.assign "n" e) :=
    ⟨_, by with_unfolding_all rfl⟩
  have hok : ((new .standard {}).execute "n = 'one'.length()").1 = .ok (.integer 3) := by
    with_unfolding_all rfl
  have hfails : (s.execute "n = n.missing").1 =
      .error (.eval (.unknownMember TypeName.long "missing")) := by with_unfolding_all rfl
  have hkeeps : Keeps "n" s t := by
    refine .tail (.single ⟨.execute "n = n.missing", ?_, rfl⟩) ⟨.bind "m" (.string "two"), ?_, rfl⟩
    · intro v hbinds
      cases hbinds with
      | assign _ _ _ h => cases hfails.symm.trans h
    · intro v hbinds
      generalize hcommand : Command.bind "m" (.string "two") = command at hbinds
      cases hbinds with
      | bind _ => exact absurd (Command.bind.inj hcommand).1 (by decide)
      | assign _ _ _ _ => cases hcommand
  exact (execute_of_binds _ t "n" (.integer 3) _ (.assign _ e hline hok) hkeeps).1 (by decide)

/-- A literal word can be bound, and is not read back. -/
theorem execute_bound_word :
    let s := new .standard {}
    s.Reachable .standard ∧ (s.bind "true" (.integer 5)).1 = .ok () ∧
      ((s.perform (.bind "true" (.integer 5))).execute "true").1 = .ok (.boolean true) ∧
      ((s.perform (.bind "true" (.integer 5))).execute "true").1 ≠ .ok (.integer 5) := by
  have hword : literalWord? "true" = some (.boolean true) := rfl
  refine ⟨.new {}, by with_unfolding_all rfl, ?_, ?_⟩
  · rw [execute_word hword]
    rfl
  · rw [execute_word hword]
    nofun

end Session
end ScriptConsole
