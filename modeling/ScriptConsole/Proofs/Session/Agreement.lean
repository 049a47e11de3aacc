import ScriptConsole.Proofs.Chain.Path
import ScriptConsole.Proofs.Completion.Matching
import ScriptConsole.Proofs.Evaluation.Dispatch

namespace ScriptConsole

theorem execute_print (s : Session) (e : Expr) (he : e.WellNamed) (hdeep : e.deepest 0 ≤ maxDepth)
    (hcall : ∀ function args, e ≠ .call function args) :
    s.execute e.print = (s.evaluate e, s) := by
  have hparse := parseStatement_of_expression _ _
    ((parseExpression_printable e (printable_of_wellNamed e he)).2 hdeep)
  rw [Session.execute, hparse]
  cases e with
  | call function args => exact (hcall function args rfl).elim
  | literal _ | name _ | field _ _ | invoke _ _ _ => rfl

/-- Executing the line fails for want of a member. -/
def Session.LacksMember (s : Session) (line : String) : Prop :=
  ∃ type member, (s.execute line).1 = .error (.eval (.unknownMember type member))

theorem lacksMember_print_iff (s : Session) (e : Expr) (he : e.WellNamed)
    (hdeep : e.deepest 0 ≤ maxDepth) (hcall : ∀ function args, e ≠ .call function args) :
    s.LacksMember e.print ↔
      ∃ type member, s.registry.evalExpr s.scope e = .error (.unknownMember type member) := by
  rw [Session.LacksMember, execute_print s e he hdeep hcall]
  unfold Session.evaluate
  cases s.registry.evalExpr s.scope e <;> simp [Except.mapError]

/-- No native code fails for want of a member. -/
def Registry.NativesFindMembers (r : Registry) : Prop :=
  ∀ c ∈ r.classes, ∀ m ∈ c.methods, ∀ run ∈ m.native, ∀ receiver args type member,
    run receiver args ≠ .error (.unknownMember type member)

section Values
variable (r : Registry) (type name : String)

theorem invoke_ne_unknownMember (hnatives : r.NativesFindMembers) (m : Method)
    (hm : m ∈ r.overloads type name) (receiver : Value) (args : List Value) (other member : String) :
    m.invoke receiver args ≠ .error (.unknownMember other member) := by
  obtain ⟨c, hc, hmethod⟩ := List.mem_flatMap.1 (List.mem_filter.1 hm).1
  unfold Method.invoke
  split
  · next run hrun =>
    exact hnatives c (hierarchy_subset r type hc) m hmethod run hrun receiver args other member
  · nofun

end Values

/-- A name bound to a value with members. -/
structure Session.Holds (s : Session) (x : String) (v : Value) (type : String) : Prop where
  isName : isIdentifier x = true
  noWord : x ∉ literalWords
  bound : s.scope.binding? x = some v
  typed : v.type? = some type
  nonvoid : type ≠ TypeName.void

theorem resolve_bound {s : Session} {x : String} {v : Value} (hv : s.scope.binding? x = some v) :
    s.scope.resolve s.registry.catalog x = some (.value v) := by
  simp [Scope.resolve, hv]

theorem denote_bound {s : Session} {x : String} {v : Value} (hv : s.scope.binding? x = some v) :
    s.registry.denote s.scope (.name x) = .ok (.value v) := by
  rw [Registry.denote, resolve_bound hv]

section Bound
variable {s : Session} {x : String} {v : Value} {type : String} (h : s.Holds x v type)
variable (n : String) (hn : isIdentifier n = true)
include h

theorem evalExpr_field_bound :
    s.registry.evalExpr s.scope (.field (.name x) n) = match s.registry.field? type n with
      | none => .error (.unknownMember type n)
      | some _ => .ok ((v.stored? n).getD .null) := by
  rw [Registry.evalExpr, Registry.denote, denote_bound h.bound]
  change s.registry.readMember (.value v) n >>= Referent.toValue = _
  simp only [Registry.readMember, h.typed]
  cases s.registry.field? type n <;> rfl

theorem evalExpr_invoke_bound :
    s.registry.evalExpr s.scope (.invoke (.name x) n []) =
      s.registry.selectOverload type n 0 >>= fun m => m.invoke v [] := by
  rw [Registry.evalExpr, Registry.denote, denote_bound h.bound, Registry.denoteValues]
  change ((s.registry.callMember (.value v) n [] >>= fun w => pure (.value w)) >>=
    Referent.toValue) = _
  simp only [Registry.callMember, h.typed, List.length_nil]
  cases (s.registry.selectOverload type n 0 >>= fun m => m.invoke v []) <;> rfl

include hn

/-- Reading a member fails for want of it exactly when the type has no such field. -/
theorem lacksMember_field_iff :
    s.LacksMember (x ++ "." ++ n) ↔ s.registry.field? type n = none := by
  have hwell : (Expr.field (.name x) n).WellNamed := .field _ _ (.name x h.isName h.noWord) hn
  have hprint : (Expr.field (.name x) n).print = x ++ "." ++ n := rfl
  have hdeep : (Expr.field (.name x) n).deepest 0 ≤ maxDepth := by
    simp [maxDepth, Expr.deepest, Expr.linkCount]
  rw [← hprint, lacksMember_print_iff s _ hwell hdeep (by simp), evalExpr_field_bound h]
  cases s.registry.field? type n <;> simp

/-- Calling a member without arguments fails for want of it exactly when the type has no such
method. -/
theorem lacksMember_call_iff (hnatives : s.registry.NativesFindMembers) :
    s.LacksMember (x ++ "." ++ n ++ "()") ↔ s.registry.overloads type n = [] := by
  have hwell : (Expr.invoke (.name x) n []).WellNamed :=
    .invoke _ _ _ (.name x h.isName h.noWord) hn (List.forall_mem_nil _)
  have hprint : (Expr.invoke (.name x) n []).print = x ++ "." ++ n ++ "()" := by
    simp [Expr.print, Expr.printArgs, String.append_assoc]
  have hdeep : (Expr.invoke (.name x) n []).deepest 0 ≤ maxDepth := by
    simp [maxDepth, Expr.deepest, Expr.deepestOf, Expr.linkCount]
  rw [← hprint, lacksMember_print_iff s _ hwell hdeep (by simp), evalExpr_invoke_bound h]
  rcases selectOverload_cases s.registry type n 0 with
    ⟨hnone, hselect⟩ | ⟨m, hm, hselect⟩ | ⟨hsome, hselect⟩
  · rw [hselect]
    exact iff_of_true ⟨type, n, rfl⟩ hnone
  · rw [hselect]
    refine iff_of_false ?_ (List.ne_nil_of_mem hm)
    rintro ⟨other, member, hfails⟩
    exact invoke_ne_unknownMember _ type n hnatives m hm v [] other member hfails
  · rw [hselect]
    refine iff_of_false ?_ hsome
    rintro ⟨other, member, hfails⟩
    cases hfails

end Bound

theorem get?_members_value (r : Registry) (scope : Scope) (v : Value) (type name : String) :
    ((Reference.value v type).members scope r.catalog).get? name =
      (r.membersOf type).bind (·.get? name) := by
  have hmembers : (Reference.value v type).members scope r.catalog =
      ([type].filterMap r.membersOf).foldl .union .empty := rfl
  rw [hmembers]
  cases hset : r.membersOf type with
  | none => simp [hset, MemberSet.get?, MemberSet.empty]
  | some members =>
    have hone : ([type].filterMap r.membersOf).foldl .union .empty =
        MemberSet.empty.insertAll members.members := by simp [hset, MemberSet.union]
    rw [hone, MemberSet.get?_insertAll]
    rfl

section Bound
variable {s : Session} {x : String} {v : Value} {type : String} (h : s.Holds x v type)
include h

/-- Behind a bound name and a dot stands its value. -/
theorem resolve_behind_bound : ∃ chain, splitChain (x ++ ".") = .ok chain ∧ chain.stem = "" ∧
    (s.environment.resolve chain).reference = .value v type := by
  obtain ⟨chain, hsplit, hhead, hsegments, _, hstem⟩ :=
    splitChain_path x [] (List.forall_mem_singleton.2 h.isName)
  rw [String.intercalate_singleton] at hsplit
  refine ⟨chain, hsplit, hstem, ?_⟩
  rw [Environment.resolve, List.map_eq_nil_iff.1 hsegments, hhead, Environment.follow,
    resolveHead_name _ x _ (resolve_bound h.bound)]
  exact (ofValue_value v v type).2 ⟨rfl, h.typed, h.nonvoid⟩

/-- Behind a bound name the members of its type are offered, each with the kind it is listed with. -/
theorem offered_kind_iff (hlimit : s.config.limit = none) (n : String) (kind : MemberKind) :
    (∃ i ∈ s.items (x ++ ".") (x ++ ".").utf8ByteSize, i.label = n ∧ i.kind = kind) ↔
      s.registry.listedKind? type n = some kind := by
  obtain ⟨chain, hsplit, hstem, hvalue⟩ := resolve_behind_bound h
  have hitems : s.items (x ++ ".") (x ++ ".").utf8ByteSize =
      candidates ((Reference.value v type).members s.scope s.registry.catalog) "" := by
    rw [Session.items, Environment.items, Environment.completion_end _ _ hsplit, hvalue, hstem,
      CompletionConfig.cap, hlimit]
    rfl
  rw [hitems, exists_candidate_iff _ "" n List.nil_prefix, get?_members_value]
  rfl

theorem offered_iff (hlimit : s.config.limit = none) (n : String) :
    (∃ i ∈ s.items (x ++ ".") (x ++ ".").utf8ByteSize, i.label = n) ↔
      ∃ c ∈ s.registry.hierarchy type, c.Declares n := by
  have hlisted : (∃ i ∈ s.items (x ++ ".") (x ++ ".").utf8ByteSize, i.label = n) ↔
      ∃ kind, s.registry.listedKind? type n = some kind := by
    simp only [← offered_kind_iff h hlimit n]
    constructor
    · rintro ⟨i, hi, hlabel⟩
      exact ⟨i.kind, i, hi, hlabel, rfl⟩
    · rintro ⟨_, i, hi, hlabel, _⟩
      exact ⟨i, hi, hlabel⟩
  rw [hlisted, ← Option.isSome_iff_exists, isSome_listedKind?]

end Bound

/-- Completion and execution agree on the members of a bound value.  A name is offered exactly when a
class that the type of the value leads to declares it, which is when reading it as a field or calling
it without arguments does not fail for want of the member; what is offered as a method can be called,
and what is offered as a field can be read. -/
theorem offered_iff_not_lacking (r : Registry) (hnatives : r.NativesFindMembers) (s : Session)
    (hs : s.Reachable r) (hlimit : s.config.limit = none) (x : String)
    (hword : x ∉ ["true", "false", "null"]) (v : Value) (hx : s.scope.binding? x = some v)
    (type : String) (htype : v.type? = some type) (hvoid : type ≠ TypeName.void) (n : String)
    (hn : isIdentifier n = true) :
    ((∃ i ∈ s.items (x ++ ".") (x ++ ".").utf8ByteSize, i.label = n) ↔
      ∃ c ∈ r.hierarchy type, c.Declares n) ∧
    ((∃ i ∈ s.items (x ++ ".") (x ++ ".").utf8ByteSize, i.label = n) ↔
      ¬ s.LacksMember (x ++ "." ++ n) ∨ ¬ s.LacksMember (x ++ "." ++ n ++ "()")) ∧
    (∀ i ∈ s.items (x ++ ".") (x ++ ".").utf8ByteSize, i.label = n → i.kind = .method →
      ¬ s.LacksMember (x ++ "." ++ n ++ "()")) ∧
    ∀ i ∈ s.items (x ++ ".") (x ++ ".").utf8ByteSize, i.label = n → i.kind = .field →
      ¬ s.LacksMember (x ++ "." ++ n) := by
  have h : s.Holds x v type := ⟨hs.isIdentifier_of_bound x v hx, hword, hx, htype, hvoid⟩
  obtain rfl := hs.registry_eq
  have hread : ¬ s.LacksMember (x ++ "." ++ n) ↔
      ∃ c ∈ s.registry.hierarchy type, c.DeclaresField n := by
    rw [lacksMember_field_iff h n hn, ← isSome_field?, Option.isSome_iff_ne_none]
  have hcall : ¬ s.LacksMember (x ++ "." ++ n ++ "()") ↔
      ∃ c ∈ s.registry.hierarchy type, c.DeclaresMethod n := by
    rw [lacksMember_call_iff h n hn hnatives, ← overloads_ne_nil]
  have hkinds := offered_kind_iff h hlimit n
  have hoffered := offered_iff h hlimit n
  refine ⟨hoffered, ?_, ?_, ?_⟩
  · rw [hoffered, hread, hcall, or_comm]
    simp only [ClassDecl.Declares, ClassDecl.DeclaresMethod, and_or_left, exists_or]
  · intro i hi hlabel hkind
    exact hcall.2 (exists_method_of_listed _ _ _ ((hkinds .method).1 ⟨i, hi, hlabel, hkind⟩))
  · intro i hi hlabel hkind
    exact hread.2 (exists_field_of_listed _ _ _ ((hkinds .field).1 ⟨i, hi, hlabel, hkind⟩))

/-- Pairs have a field with the name of a method of the class they extend. -/
def pairRegistry : Registry where
  classes := [
    { name := "p.Pair"
      superclass := some "p.Base"
      fields := [⟨"label", TypeName.string, false⟩] },
    { name := "p.Base"
      methods := [⟨"label", TypeName.string, .exact 0, false, some fun _ _ => .ok (.string "x")⟩] }]
  packages := ["p"]

theorem pairRegistry_natives : pairRegistry.NativesFindMembers := by
  intro c hc m hm run hrun receiver args type member
  rcases List.mem_pair.1 hc with rfl | rfl
  · cases hm
  · obtain rfl := List.mem_singleton.1 hm
    cases hrun
    nofun

def pairSession : Session :=
  (Session.new pairRegistry {}).perform (.bind "pair" (.object "p.Pair" []))

theorem offered_label :
    ¬ pairSession.LacksMember ("pair" ++ "." ++ "label" ++ "()") ∧
      ∃ i ∈ pairSession.items ("pair" ++ ".") ("pair" ++ ".").utf8ByteSize, i.label = "label" := by
  have hrun : (pairSession.execute ("pair" ++ "." ++ "label" ++ "()")).1 = .ok (.string "x") := by
    with_unfolding_all rfl
  have hfound : ¬ pairSession.LacksMember ("pair" ++ "." ++ "label" ++ "()") := by
    rintro ⟨type, member, hfails⟩
    cases hrun.symm.trans hfails
  obtain ⟨_, hagree, _⟩ := offered_iff_not_lacking pairRegistry pairRegistry_natives pairSession
    (.perform _ _ (.new {})) rfl "pair" (by decide) (.object "p.Pair" []) (by with_unfolding_all rfl)
    "p.Pair" rfl (by decide) "label" (by decide)
  exact ⟨hfound, hagree.2 (.inr hfound)⟩

end ScriptConsole
