import ScriptConsole.Proofs.Evaluation.Dispatch

namespace ScriptConsole

/-- The methods that were run, in order, and what came of it. -/
structure Recorded (α : Type) where
  runs : List Dispatch
  result : Except EvalError α

namespace Recorded
variable {α β : Type}

def plain (x : Except EvalError α) : Recorded α := ⟨[], x⟩

/-- A step, and another one with its result.  Nothing follows an error. -/
def bind (x : Recorded α) (f : α → Recorded β) : Recorded β :=
  match x.result with
  | .error e => ⟨x.runs, .error e⟩
  | .ok a => ⟨x.runs ++ (f a).runs, (f a).result⟩

@[simp] theorem runs_plain (x : Except EvalError α) : (plain x).runs = [] := rfl

@[simp] theorem result_plain (x : Except EvalError α) : (plain x).result = x := rfl

@[simp] theorem result_bind (x : Recorded α) (f : α → Recorded β) :
    (x.bind f).result = x.result >>= fun a => (f a).result := by
  unfold bind
  cases x.result <;> rfl

theorem mem_runs_bind (x : Recorded α) (f : α → Recorded β) (d : Dispatch) :
    d ∈ (x.bind f).runs ↔ d ∈ x.runs ∨ ∃ a, x.result = .ok a ∧ d ∈ (f a).runs := by
  unfold bind
  cases x.result with
  | error e => simp
  | ok a => simp

theorem bind_congr {x y : Recorded α} {f g : α → Recorded β} (hxy : y = x)
    (hfg : ∀ a, x.result = .ok a → g a = f a) : y.bind g = x.bind f := by
  subst hxy
  unfold bind
  cases hy : y.result with
  | error e => rfl
  | ok a => simp only [hfg a hy]

end Recorded

/-- What comes of running a method. -/
abbrev Runner := Dispatch → Except EvalError Value

/-- Runs a method, and records it. -/
def Dispatch.recorded (run : Runner) (d : Dispatch) : Recorded Value := ⟨[d], run d⟩

section Evaluation
variable (r : Registry) (run : Runner) (s : Scope)

mutual

/-- What an expression refers to, and the methods run on the way.  The running is left to `run`, which
decides what the evaluation learns of a method. -/
def Registry.recorded : Expr → Recorded Referent
  | .literal l => .plain (.ok (.value l.toValue))
  | .name text => .plain (r.denote s (.name text))
  | .call function args => .plain (r.denote s (.call function args))
  | .field receiver member => (Registry.recorded receiver).bind fun x => .plain (r.readMember x member)
  | .invoke receiver member args =>
    (Registry.recorded receiver).bind fun x => (Registry.recordedValues args).bind fun vs =>
      (Recorded.plain (r.dispatch x member vs)).bind fun d => (d.recorded run).bind fun v =>
        .plain (.ok (.value v))

def Registry.recordedValues : List Expr → Recorded (List Value)
  | [] => .plain (.ok [])
  | arg :: args =>
    (Registry.recorded arg).bind fun x => (Recorded.plain x.toValue).bind fun v =>
      (Registry.recordedValues args).bind fun vs => .plain (.ok (v :: vs))

end

mutual

/-- With their own code running the methods, this is the evaluation. -/
theorem result_recorded (e : Expr) : (r.recorded Dispatch.result s e).result = r.denote s e := by
  cases e with
  | literal l => rfl
  | name text => rfl
  | call function args => rfl
  | field receiver member =>
    have hreceiver := result_recorded receiver
    simp [Registry.recorded, Registry.denote, hreceiver]
  | invoke receiver member args =>
    have hreceiver := result_recorded receiver
    have hargs := result_recordedValues args
    simp only [Registry.recorded, Registry.denote, Recorded.result_bind, Recorded.result_plain,
      hreceiver, hargs, callMember_eq, bind_assoc]
    rfl
termination_by structural e

theorem result_recordedValues (es : List Expr) :
    (r.recordedValues Dispatch.result s es).result = r.denoteValues s es := by
  cases es with
  | nil => rfl
  | cons arg args =>
    have harg := result_recorded arg
    have hargs := result_recordedValues args
    simp only [Registry.recordedValues, Registry.denoteValues, Recorded.result_bind,
      Recorded.result_plain, harg, hargs]
    rfl
termination_by structural es

end

variable {r run s}

mutual

theorem forall_runs (P : Dispatch → Prop)
    (h : ∀ target member args d, r.dispatch target member args = .ok d → P d) (e : Expr) :
    ∀ d ∈ (r.recorded run s e).runs, P d := by
  intro d hd
  cases e with
  | literal l => cases hd
  | name text => cases hd
  | call function args => cases hd
  | field receiver member =>
    simp only [Registry.recorded, Recorded.mem_runs_bind, Recorded.runs_plain, List.not_mem_nil,
      and_false, exists_false, or_false] at hd
    exact forall_runs P h receiver d hd
  | invoke receiver member args =>
    simp only [Registry.recorded, Recorded.mem_runs_bind, Recorded.runs_plain, List.not_mem_nil,
      and_false, exists_false, or_false, false_or, Recorded.result_plain] at hd
    obtain hd | ⟨target, _, hd | ⟨vs, _, d', hdispatch, hd⟩⟩ := hd
    · exact forall_runs P h receiver d hd
    · exact forall_runsValues P h args d hd
    · obtain rfl := List.mem_singleton.1 hd
      exact h target member vs d hdispatch
termination_by structural e

theorem forall_runsValues (P : Dispatch → Prop)
    (h : ∀ target member args d, r.dispatch target member args = .ok d → P d) (es : List Expr) :
    ∀ d ∈ (r.recordedValues run s es).runs, P d := by
  intro d hd
  cases es with
  | nil => cases hd
  | cons arg args =>
    simp only [Registry.recordedValues, Recorded.mem_runs_bind, Recorded.runs_plain,
      List.not_mem_nil, and_false, exists_false, or_false, false_or, Recorded.result_plain] at hd
    obtain hd | ⟨_, _, _, _, hd⟩ := hd
    · exact forall_runs P h arg d hd
    · exact forall_runsValues P h args d hd
termination_by structural es

end

mutual

/-- Of the methods, only the results of those recorded count. -/
theorem recorded_congr (run' : Runner) (e : Expr)
    (h : ∀ d ∈ (r.recorded run s e).runs, run' d = run d) :
    r.recorded run' s e = r.recorded run s e := by
  cases e with
  | literal l => rfl
  | name text => rfl
  | call function args => rfl
  | field receiver member =>
    have hreceiver := recorded_congr run' receiver
      fun d hd => h d ((Recorded.mem_runs_bind _ _ d).2 (.inl hd))
    exact Recorded.bind_congr hreceiver fun _ _ => rfl
  | invoke receiver member args =>
    simp only [Registry.recorded, Recorded.mem_runs_bind] at h
    have hreceiver := recorded_congr run' receiver fun d hd => h d (.inl hd)
    refine Recorded.bind_congr hreceiver fun x hx => ?_
    have hargs := recordedValues_congr run' args fun d hd => h d (.inr ⟨x, hx, .inl hd⟩)
    refine Recorded.bind_congr hargs fun vs hvs => ?_
    refine Recorded.bind_congr rfl fun d hd => ?_
    have hrun : run' d = run d :=
      h d (.inr ⟨x, hx, .inr ⟨vs, hvs, .inr ⟨d, hd, .inl List.mem_cons_self⟩⟩⟩)
    refine Recorded.bind_congr ?_ fun _ _ => rfl
    rw [Dispatch.recorded, hrun]
    rfl
termination_by structural e

theorem recordedValues_congr (run' : Runner) (es : List Expr)
    (h : ∀ d ∈ (r.recordedValues run s es).runs, run' d = run d) :
    r.recordedValues run' s es = r.recordedValues run s es := by
  cases es with
  | nil => rfl
  | cons arg args =>
    simp only [Registry.recordedValues, Recorded.mem_runs_bind] at h
    have harg := recorded_congr run' arg fun d hd => h d (.inl hd)
    refine Recorded.bind_congr harg fun x hx => ?_
    refine Recorded.bind_congr rfl fun v hv => ?_
    have hargs := recordedValues_congr run' args
      fun d hd => h d (.inr ⟨x, hx, .inr ⟨v, hv, .inl hd⟩⟩)
    exact Recorded.bind_congr hargs fun _ _ => rfl
termination_by structural es

end

end Evaluation

/-- Runs a method as it is documented: a static one with `null` as receiver. -/
def Dispatch.impersonal (d : Dispatch) : Except EvalError Value :=
  d.method.invoke (if d.method.isStatic then .null else d.receiver) d.args

/-- Called on a class, a method is static and is given `null`; called on a value, it is given the
value. -/
theorem receiver_dispatch {r : Registry} {target : Referent} {member : String} {args : List Value}
    {d : Dispatch} (h : r.dispatch target member args = .ok d) :
    (∃ type, d.target = .type type) ∧ d.method.isStatic = true ∧ d.receiver = .null ∨
      d.target = .value d.receiver ∧ d.receiver ≠ .null := by
  cases target with
  | package path => cases h
  | type name =>
    obtain ⟨m, _, hstatic, rfl⟩ := (dispatch_type_ok r member args name d).1 h
    exact .inl ⟨⟨name, rfl⟩, hstatic, rfl⟩
  | value v =>
    obtain ⟨type, m, htype, _, rfl⟩ := (dispatch_value_ok r member args v d).1 h
    refine .inr ⟨rfl, ?_⟩
    rintro rfl
    cases htype

/-- The methods that an evaluation runs are recorded in `recorded`.  A static one among them is given
`null` exactly when it is called on a class; called on a value, it is given the value.  So handing `null`
to all static methods comes to the same as long as they are called on classes only. -/
theorem static_receiver (r : Registry) (s : Scope) (e : Expr) :
    (r.recorded Dispatch.result s e).result = r.denote s e ∧
      (∀ d ∈ (r.recorded Dispatch.result s e).runs, d.method.isStatic = true →
        (d.receiver = .null ↔ ∃ type, d.target = .type type) ∧
          ∀ v, d.target = .value v → d.receiver = v) ∧
      ((∀ d ∈ (r.recorded Dispatch.result s e).runs, d.method.isStatic = true →
          ∃ type, d.target = .type type) →
        (r.recorded Dispatch.impersonal s e).result = r.denote s e) := by
  have hreceiver : ∀ d ∈ (r.recorded Dispatch.result s e).runs,
      (∃ type, d.target = .type type) ∧ d.method.isStatic = true ∧ d.receiver = .null ∨
        d.target = .value d.receiver ∧ d.receiver ≠ .null :=
    forall_runs _ (fun _ _ _ _ h => receiver_dispatch h) e
  refine ⟨result_recorded r s e, ?_, ?_⟩
  · intro d hd _
    rcases hreceiver d hd with ⟨⟨type, htype⟩, _, hnull⟩ | ⟨hvalue, hlive⟩
    · exact ⟨iff_of_true hnull ⟨type, htype⟩, fun v hv => by cases htype.symm.trans hv⟩
    · refine ⟨iff_of_false hlive ?_, fun v hv => Referent.value.inj (hvalue.symm.trans hv)⟩
      rintro ⟨type, htype⟩
      cases hvalue.symm.trans htype
  · intro hclasses
    rw [← result_recorded, recorded_congr]
    intro d hd
    unfold Dispatch.impersonal
    split
    · next hstatic =>
      obtain ⟨type, htype⟩ := hclasses d hd hstatic
      rcases hreceiver d hd with ⟨_, _, hnull⟩ | ⟨hvalue, _⟩
      · rw [Dispatch.result, hnull]
      · cases hvalue.symm.trans htype
    · rfl

/-- A class with a static method that yields its receiver. -/
def mirrorRegistry : Registry := Registry.empty.addClass
  { name := "p.Mirror",
    methods := [
      { name := "self", returnType := "p.Mirror", isStatic := true,
        native := some fun this _ => .ok this }] }

def mirrorScope : Scope := Scope.empty.bind "m" (.object "p.Mirror" [])

/-- The calls `p.Mirror.self()` and `m.self()`, the one on the class and the other on a value. -/
def selfOfClass : Expr := .invoke (.field (.name "p") "Mirror") "self" []
def selfOfValue : Expr := .invoke (.name "m") "self" []

/-- Called on the class, the method is given `null`, and so it makes no difference to hand it `null` in
any case. -/
theorem static_receiver_class :
    (∃ d ∈ (mirrorRegistry.recorded Dispatch.result mirrorScope selfOfClass).runs,
      d.method.isStatic = true ∧ d.receiver = .null) ∧
      (mirrorRegistry.recorded Dispatch.impersonal mirrorScope selfOfClass).result =
        mirrorRegistry.denote mirrorScope selfOfClass := by
  obtain ⟨_, hreceivers, himpersonal⟩ := static_receiver mirrorRegistry mirrorScope selfOfClass
  obtain ⟨m, hstatic, hruns⟩ : ∃ m : Method, m.isStatic = true ∧
      (mirrorRegistry.recorded Dispatch.result mirrorScope selfOfClass).runs =
        [⟨.type "p.Mirror", m, .null, []⟩] := ⟨_, rfl, by with_unfolding_all rfl⟩
  rw [hruns] at hreceivers himpersonal ⊢
  refine ⟨⟨_, List.mem_cons_self, hstatic, ?_⟩, himpersonal ?_⟩
  · exact (hreceivers _ List.mem_cons_self hstatic).1.2 ⟨_, rfl⟩
  · intro d hd _
    obtain rfl := List.mem_singleton.1 hd
    exact ⟨_, rfl⟩

/-- Called on a value, the static method is given the value and yields it. -/
theorem static_receives_value :
    (∃ d ∈ (mirrorRegistry.recorded Dispatch.result mirrorScope selfOfValue).runs,
      d.method.isStatic = true ∧ d.receiver ≠ .null) ∧
      parseExpression "m.self()" = .ok selfOfValue ∧
      mirrorRegistry.interpret mirrorScope "m.self()" = .ok (.object "p.Mirror" []) := by
  obtain ⟨m, hstatic, hruns⟩ : ∃ m : Method, m.isStatic = true ∧
      (mirrorRegistry.recorded Dispatch.result mirrorScope selfOfValue).runs =
        [⟨.value (.object "p.Mirror" []), m, .object "p.Mirror" [], []⟩] :=
    ⟨_, rfl, by with_unfolding_all rfl⟩
  refine ⟨?_, by with_unfolding_all rfl, by with_unfolding_all rfl⟩
  rw [hruns]
  exact ⟨_, List.mem_cons_self, hstatic, by simp⟩

end ScriptConsole
