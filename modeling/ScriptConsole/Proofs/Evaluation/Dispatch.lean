import ScriptConsole.Evaluation.Interpreter
import ScriptConsole.Proofs.Registry.Nearest
import ScriptConsole.Proofs.Success

namespace ScriptConsole

/-- The method of that name takes so many arguments. -/
def Method.Answers (member : String) (count : Nat) (m : Method) : Prop :=
  m.name = member ∧ m.arity.accepts count = true

instance (member : String) (count : Nat) : DecidablePred (Method.Answers member count) :=
  fun m => inferInstanceAs (Decidable (m.name = member ∧ m.arity.accepts count = true))

/-- The type or a class that its supertypes lead to declares `m`.  In front of it stand the methods of
the nearer classes and those that its class declares before it. -/
def Registry.DeclaresBehind (r : Registry) (type : String) (front : List Method) (m : Method) :
    Prop :=
  ∃ nearer c own rest farther, r.hierarchy type = nearer ++ c :: farther ∧
    c.methods = own ++ m :: rest ∧ front = nearer.flatMap ClassDecl.methods ++ own

/-- The first of the methods declared for a type that answers. -/
structure Registry.Chooses (r : Registry) (type member : String) (count : Nat) (m : Method) :
    Prop where
  answers : m.Answers member count
  first : ∃ front, r.DeclaresBehind type front m ∧ ∀ m' ∈ front, ¬ m'.Answers member count

section Choice
variable (r : Registry) (type member : String) (count : Nat)

/-- The overloads that a type has are the methods of that name along its supertypes. -/
theorem find?_overloads :
    (r.overloads type member).find? (·.arity.accepts count) =
      ((r.hierarchy type).flatMap ClassDecl.methods).find? (·.Answers member count) := by
  rw [Registry.overloads, List.find?_filter]
  congr 1
  funext m
  by_cases hm : m.name = member <;> simp [Method.Answers, hm]

theorem selectOverload_ok (m : Method) :
    r.selectOverload type member count = .ok m ↔
      (r.overloads type member).find? (·.arity.accepts count) = some m := by
  unfold Registry.selectOverload
  split
  · next hnone => simp [hnone]
  · split
    · next found hfound => simp [hfound]
    · next hfound => simp [hfound]

/-- An overload is missing when there is none at all, and not when none takes the arguments. -/
theorem selectOverload_cases :
    (r.overloads type member = [] ∧
        r.selectOverload type member count = .error (.unknownMember type member)) ∨
      (∃ m ∈ r.overloads type member, r.selectOverload type member count = .ok m) ∨
      (r.overloads type member ≠ [] ∧
        r.selectOverload type member count = .error (.noMatchingOverload type member count)) := by
  unfold Registry.selectOverload
  split
  · next hnone => exact .inl ⟨hnone, rfl⟩
  · next hsome =>
    split
    · next m hm => exact .inr (.inl ⟨m, List.mem_of_find?_eq_some hm, rfl⟩)
    · exact .inr (.inr ⟨hsome, rfl⟩)

/-- What is found first in the methods of all classes is found in one of them, and neither in the
classes in front of it nor in front in it. -/
theorem selectOverload_ok_iff (m : Method) :
    r.selectOverload type member count = .ok m ↔ r.Chooses type member count m := by
  rw [selectOverload_ok, find?_overloads, List.find?_flatMap, List.findSome?_eq_some_iff]
  constructor
  · intro h
    obtain ⟨nearer, c, farther, hwalk, hfound, hnearer⟩ := h
    obtain ⟨hm, own, rest, hown, hbefore⟩ := List.find?_eq_some_iff_append.1 hfound
    refine ⟨by simpa using hm, _, ⟨nearer, c, own, rest, farther, hwalk, hown, rfl⟩, ?_⟩
    intro m' hm'
    rcases List.mem_append.1 hm' with hm' | hm'
    · obtain ⟨d, hd, hm'⟩ := List.mem_flatMap.1 hm'
      simpa using List.find?_eq_none.1 (hnearer d hd) m' hm'
    · simpa using hbefore m' hm'
  · intro h
    obtain ⟨hm, _, ⟨nearer, c, own, rest, farther, hwalk, hown, rfl⟩, hfront⟩ := h
    refine ⟨nearer, c, farther, hwalk, ?_, ?_⟩
    · refine List.find?_eq_some_iff_append.2 ⟨by simpa using hm, own, rest, hown, ?_⟩
      intro m' hm'
      simpa using hfront m' (List.mem_append_right _ hm')
    · intro d hd
      refine List.find?_eq_none.2 ?_
      intro m' hm'
      simpa using hfront m' (List.mem_append_left _ (List.mem_flatMap.2 ⟨d, hd, hm'⟩))

theorem chosen_or_behind {front : List Method} {m chosen : Method}
    (hm : r.DeclaresBehind type front m) (hanswers : m.Answers member count)
    (hchosen : r.Chooses type member count chosen) : chosen = m ∨ chosen ∈ front := by
  rw [← selectOverload_ok_iff, selectOverload_ok, find?_overloads] at hchosen
  obtain ⟨nearer, c, own, rest, farther, hwalk, hown, rfl⟩ := hm
  have hcut : (r.hierarchy type).flatMap ClassDecl.methods =
      nearer.flatMap ClassDecl.methods ++ own ++ m :: (rest ++ farther.flatMap ClassDecl.methods) := by
    simp [hwalk, hown]
  rw [hcut, List.find?_append] at hchosen
  rcases Option.or_eq_some_iff.1 hchosen with hfront | ⟨_, hbehind⟩
  · exact .inr (List.mem_of_find?_eq_some hfront)
  · rw [List.find?_cons_of_pos (by simpa using hanswers)] at hbehind
    exact .inl (Option.some.inj hbehind).symm

theorem selectOverload_own (c : ClassDecl) (hc : r.class? type = some c) (m : Method)
    (hm : c.methods.find? (·.Answers member count) = some m) :
    r.selectOverload type member count = .ok m := by
  have hfirst : (r.hierarchy type).head? = some c := (hierarchy_breadthFirst hc).first.trans hc
  obtain ⟨farther, hwalk⟩ := List.head?_eq_some_iff.1 hfirst
  rw [selectOverload_ok, find?_overloads, hwalk, List.flatMap_cons, List.find?_append, hm]
  rfl

end Choice

/-- A method about to run: what the call was written on, the overload chosen, the receiver that it is
given and the arguments. -/
structure Dispatch where
  target : Referent
  method : Method
  receiver : Value
  args : List Value

def Dispatch.result (d : Dispatch) : Except EvalError Value := d.method.invoke d.receiver d.args

/-- All that a call does up to running a method. -/
def Registry.dispatch (r : Registry) (target : Referent) (member : String) (args : List Value) :
    Except EvalError Dispatch :=
  match target with
  | .package path => .error (.unbound (QualifiedName.join path member))
  | .type name => do
    let m ← r.selectOverload name member args.length
    if m.isStatic then .ok ⟨target, m, .null, args⟩ else .error (.noInstance name member)
  | .value v =>
    match v.type? with
    | none => .error (.nullReceiver member)
    | some type => do
      let m ← r.selectOverload type member args.length
      .ok ⟨target, m, v, args⟩

section Calls
variable (r : Registry) (target : Referent) (member : String) (args : List Value)

theorem callMember_eq :
    r.callMember target member args = r.dispatch target member args >>= Dispatch.result := by
  cases target with
  | package path => rfl
  | type name =>
    simp only [Registry.callMember, Registry.dispatch]
    cases r.selectOverload name member args.length with
    | error e => rfl
    | ok m =>
      change (if m.isStatic then _ else _) = ite (m.isStatic = true) _ _ >>= Dispatch.result
      split <;> rfl
  | value v =>
    simp only [Registry.callMember, Registry.dispatch]
    cases v.type? with
    | none => rfl
    | some type =>
      dsimp only
      cases r.selectOverload type member args.length <;> rfl

theorem dispatch_type_ok (type : String) (d : Dispatch) :
    r.dispatch (.type type) member args = .ok d ↔
      ∃ m, r.Chooses type member args.length m ∧ m.isStatic = true ∧
        d = ⟨.type type, m, .null, args⟩ := by
  simp only [Registry.dispatch, bind_ok_iff, selectOverload_ok_iff]
  refine exists_congr fun m => and_congr_right fun _ => ?_
  split
  · next hstatic => simp [hstatic, eq_comm]
  · next hinstance => simp [hinstance]

theorem dispatch_value_ok (v : Value) (d : Dispatch) :
    r.dispatch (.value v) member args = .ok d ↔
      ∃ type m, v.type? = some type ∧ r.Chooses type member args.length m ∧
        d = ⟨.value v, m, v, args⟩ := by
  simp only [Registry.dispatch]
  cases v.type? with
  | none => simp
  | some type =>
    simp only [bind_ok_iff, selectOverload_ok_iff]
    constructor
    · intro h
      obtain ⟨m, hm, hd⟩ := h
      exact ⟨type, m, rfl, hm, (Except.ok.inj hd).symm⟩
    · intro h
      obtain ⟨_, m, htype, hm, rfl⟩ := h
      cases htype
      exact ⟨m, hm, rfl⟩

theorem callMember_own {v : Value} {type : String} {c : ClassDecl} {m : Method}
    (hv : v.type? = some type) (hc : r.class? type = some c)
    (hm : c.methods.find? (·.Answers member args.length) = some m) :
    r.callMember (.value v) member args = m.invoke v args := by
  have hselect := selectOverload_own r type member args.length c hc m hm
  have hdispatch := (dispatch_value_ok r member args v _).2
    ⟨type, m, hv, (selectOverload_ok_iff r type member args.length m).1 hselect, rfl⟩
  rw [callMember_eq, hdispatch]
  rfl

theorem dispatch_noInstance_iff (type : String) :
    r.dispatch (.type type) member args = .error (.noInstance type member) ↔
      ∃ m, r.Chooses type member args.length m ∧ m.isStatic = false := by
  simp only [← selectOverload_ok_iff, Registry.dispatch]
  rcases selectOverload_cases r type member args.length with
    ⟨_, hselect⟩ | ⟨m, _, hselect⟩ | ⟨_, hselect⟩
  · rw [hselect]
    refine iff_of_false nofun ?_
    intro h
    obtain ⟨_, hm, _⟩ := h
    cases hm
  · rw [hselect]
    change ite (m.isStatic = true) _ _ = _ ↔ _
    split
    · next hstatic => simp [hstatic]
    · next hinstance => simp [hinstance]
  · rw [hselect]
    refine iff_of_false nofun ?_
    intro h
    obtain ⟨_, hm, _⟩ := h
    cases hm

/-- A call on a class runs what is dispatched, and the dispatcher asks for an instance exactly when
the first overload that answers is not static.  Then a static overload that answers is declared on no
class, unless behind an overload that answers too and is not static. -/
theorem instance_needed_iff (type : String) :
    r.callMember (.type type) member args =
        r.dispatch (.type type) member args >>= Dispatch.result ∧
      (r.dispatch (.type type) member args = .error (.noInstance type member) ↔
        ∃ m, r.Chooses type member args.length m ∧ m.isStatic = false) ∧
      (r.dispatch (.type type) member args = .error (.noInstance type member) →
        ∀ front m, r.DeclaresBehind type front m → m.Answers member args.length →
          m.isStatic = true →
            ∃ m' ∈ front, m'.Answers member args.length ∧ m'.isStatic = false) := by
  refine ⟨callMember_eq r _ member args, dispatch_noInstance_iff r member args type, ?_⟩
  intro h front m hm hanswers hstatic
  obtain ⟨chosen, hchosen, hinstance⟩ := (dispatch_noInstance_iff r member args type).1 h
  rcases chosen_or_behind r type member args.length hm hanswers hchosen with rfl | hfront
  · cases hstatic.symm.trans hinstance
  · exact ⟨chosen, hfront, hchosen.answers, hinstance⟩

end Calls

/-- Shapes are made by a static method of one argument, in front of which a method with any number of
arguments has the same name. -/
def shape : ClassDecl where
  name := "p.Shape"
  methods := [
    { name := "of", returnType := "p.Shape", arity := .atLeast 0 },
    { name := "of", returnType := TypeName.string, arity := .exact 1, isStatic := true,
      native := some fun _ _ => .ok (.string "made") }]

/-- An instance is asked for although a static method of that name takes the argument. -/
theorem instance_needed_despite_static :
    (Registry.empty.addClass shape).dispatch (.type "p.Shape") "of" [.integer 1] =
        .error (.noInstance "p.Shape" "of") ∧
      (Registry.empty.addClass shape).callMember (.type "p.Shape") "of" [.integer 1] =
        .error (.noInstance "p.Shape" "of") ∧
      ∃ c ∈ (Registry.empty.addClass shape).hierarchy "p.Shape", ∃ m ∈ c.methods,
        m.name = "of" ∧ m.arity.accepts [Value.integer 1].length = true ∧ m.isStatic = true := by
  have hclass : (Registry.empty.addClass shape).class? "p.Shape" = some shape := by
    rw [Registry.class?_addClass]
    rfl
  have hselect := selectOverload_own _ "p.Shape" "of" 1 shape hclass _ rfl
  have hdispatch : (Registry.empty.addClass shape).dispatch (.type "p.Shape") "of" [.integer 1] =
      .error (.noInstance "p.Shape" "of") := by
    rw [dispatch_noInstance_iff]
    exact ⟨_, (selectOverload_ok_iff _ _ _ _ _).1 hselect, rfl⟩
  refine ⟨hdispatch, ?_, shape, ?_, _, List.mem_cons_of_mem _ List.mem_cons_self, rfl, rfl, rfl⟩
  · rw [callMember_eq, hdispatch]
    rfl
  · exact List.mem_of_mem_head? ((hierarchy_breadthFirst hclass).first.trans hclass)

end ScriptConsole
