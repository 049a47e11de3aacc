import ScriptConsole.Proofs.Resolution.Trace

namespace ScriptConsole

theorem ofValue_unresolved_iff {v : Value} (h : v.isNull = false) :
    Reference.ofValue v = .unresolved ↔ v.type? = some TypeName.void := by
  unfold Reference.ofValue
  split
  · next hnone =>
    cases v with
    | null => cases h
    | void | boolean _ | integer _ | string _ | object _ _ => cases hnone
  · next type htype =>
    rw [htype, Option.some.injEq]
    split
    · next hvoid => exact iff_of_true rfl hvoid
    · next hvoid => exact iff_of_false nofun hvoid

/-- The signatures declare no type with members. -/
def VoidOnly (found : List Signature) : Prop :=
  ∀ sig ∈ found, ∀ type ∈ sig.types, type = TypeName.void

theorem declared_unresolved_iff (found : List Signature) :
    Reference.declared found = .unresolved ↔ VoidOnly found := by
  have hnil : ((found.flatMap Signature.types).eraseDups.filter (· != TypeName.void)) = [] ↔
      VoidOnly found := by
    simp only [List.filter_eq_nil_iff, List.mem_eraseDups, List.mem_flatMap, VoidOnly]
    constructor
    · intro h sig hsig type htype
      simpa using h type ⟨sig, hsig, htype⟩
    · intro h type htype
      obtain ⟨sig, hsig, hmem⟩ := htype
      simpa using h sig hsig type hmem
  rw [← hnil, Reference.declared]
  unfold Reference.ofTypes
  split
  · next hnone => exact iff_of_true rfl hnone
  · next hone =>
    rw [hone]
    exact iff_of_false nofun (List.cons_ne_nil _ _)
  · next hne _ => exact iff_of_false nofun hne

namespace Environment
variable (env : Environment)

theorem not_silent_of_live {v : Value} (h : v.isNull = false) : ¬ Silent (.ok v) := by
  cases v with
  | null => cases h
  | void | boolean _ | integer _ | string _ | object _ _ => exact id

theorem not_silent_of_definite {error : EvalError} (h : error.isUnsupported = false) :
    ¬ Silent (.error error) := by
  cases error with
  | unsupported _ => cases h
  | _ => exact id

theorem isNull_of_type {v : Value} {type : String} (h : v.type? = some type) :
    v.isNull = false := by
  cases v with
  | null => cases h
  | void | boolean _ | integer _ | string _ | object _ _ => rfl

/-- Why a call cannot be resolved behind `current`, the chain through it being `source`. -/
inductive CallFails (current : Reference) (name source : String) : Prop where
  /-- No type in front has a method of that name.  Packages have none. -/
  | unknown (none : env.methods current name = [])
  /-- The call has an error that does not merely say that it cannot be evaluated. -/
  | refused (error : EvalError) (answer : env.evaluator env.scope source = .error error)
    (definite : error.isUnsupported = false)
  /-- The call yields nothing. -/
  | void (v : Value) (answer : env.evaluator env.scope source = .ok v)
    (type : v.type? = some TypeName.void)
  /-- What the call yields is not said, and it is declared to yield nothing. -/
  | undeclared (silent : Silent (env.evaluator env.scope source))
    (types : VoidOnly (env.methods current name))

/-- Why a name without arguments cannot be resolved behind `current`. -/
inductive FieldFails (current : Reference) (name : String) : Prop where
  /-- The package contains neither a class nor a package of that name. -/
  | outside (path : QualifiedName) (front : current = .package path)
    (noClass : env.catalog.hasClass (QualifiedName.join path name) = false)
    (noPackage : env.catalog.isPackage (QualifiedName.join path name) = false)
  /-- The field stores a value without members. -/
  | void (stored : Value) (reads : env.Reads current name stored)
    (type : stored.type? = some TypeName.void)
  /-- Nothing is stored, and no type in front declares a member of that name with members. -/
  | undeclared (front : ∀ path, current ≠ .package path)
    (unread : ∀ stored, ¬ env.Reads current name stored)
    (types : VoidOnly (env.signatures current name))

/-- Why a segment cannot be resolved. -/
def Fails (current : Reference) (segment : Segment) (source : String) : Prop :=
  if segment.isCall then env.CallFails current segment.name source
  else env.FieldFails current segment.name

theorem followCall_unresolved_iff (current : Reference) (name source : String) :
    (env.followCall current name source).reference = .unresolved ↔
      env.CallFails current name source := by
  have hstep := env.callStep current name source
  generalize env.followCall current name source = next at hstep
  cases hstep with
  | unknown hnone => exact iff_of_true rfl (.unknown hnone)
  | refused _ error hanswer hdefinite =>
    exact iff_of_true rfl (.refused error hanswer hdefinite)
  | declared hfound hsilent =>
    rw [declared_unresolved_iff]
    constructor
    · exact .undeclared hsilent
    · intro hfails
      cases hfails with
      | unknown hnone => exact (hfound hnone).elim
      | undeclared _ htypes => exact htypes
      | refused error hanswer hdefinite =>
        rw [hanswer] at hsilent
        exact (not_silent_of_definite hdefinite hsilent).elim
      | void v hanswer htype =>
        rw [hanswer] at hsilent
        exact (not_silent_of_live (isNull_of_type htype) hsilent).elim
  | value hfound v hv hlive =>
    rw [ofValue_unresolved_iff hlive]
    constructor
    · exact .void v hv
    · intro hfails
      cases hfails with
      | unknown hnone => exact (hfound hnone).elim
      | void w hanswer htype =>
        cases hv.symm.trans hanswer
        exact htype
      | refused error hanswer _ => cases hv.symm.trans hanswer
      | undeclared hsilent _ =>
        rw [hv] at hsilent
        exact (not_silent_of_live hlive hsilent).elim

theorem followField_unresolved_iff (current : Reference) (name : String) :
    env.followField current name = .unresolved ↔ env.FieldFails current name := by
  have hstep := env.fieldStep current name
  generalize env.followField current name = next at hstep
  cases hstep with
  | inner path hfront hclass =>
    refine iff_of_false nofun ?_
    intro hfails
    cases hfails with
    | outside path' hpath hnone =>
      cases hfront.symm.trans hpath
      cases hclass.symm.trans hnone
    | void stored hreads => exact env.not_reads_of_ne_value (by simp [hfront]) stored hreads
    | undeclared hnone => exact hnone path hfront
  | subpackage path hfront hpackage =>
    refine iff_of_false nofun ?_
    intro hfails
    cases hfails with
    | outside path' hpath _ hnone =>
      cases hfront.symm.trans hpath
      cases hpackage.symm.trans hnone
    | void stored hreads => exact env.not_reads_of_ne_value (by simp [hfront]) stored hreads
    | undeclared hnone => exact hnone path hfront
  | outside path hfront hclass hpackage =>
    exact iff_of_true rfl (.outside path hfront hclass hpackage)
  | read stored hreads =>
    rw [ofValue_unresolved_iff hreads.live]
    constructor
    · exact .void stored hreads
    · intro hfails
      cases hfails with
      | outside path hfront =>
        exact (env.not_reads_of_ne_value (by simp [hfront]) stored hreads).elim
      | void other hother htype => rwa [hreads.unique hother]
      | undeclared _ hunread => exact (hunread stored hreads).elim
  | declared hfront hunread =>
    rw [declared_unresolved_iff]
    constructor
    · exact .undeclared hfront hunread
    · intro hfails
      cases hfails with
      | outside path hpath => exact (hfront path hpath).elim
      | void stored hreads => exact (hunread stored hreads).elim
      | undeclared _ _ htypes => exact htypes

/-- A segment is unresolved for one of these reasons only. -/
theorem step_unresolved_iff (current : Reference) (segment : Segment) (source : String) :
    (env.step current segment source).reference = .unresolved ↔
      env.Fails current segment source := by
  unfold step Fails
  split
  · exact env.followCall_unresolved_iff current segment.name source
  · exact env.followField_unresolved_iff current segment.name

end Environment
end ScriptConsole
