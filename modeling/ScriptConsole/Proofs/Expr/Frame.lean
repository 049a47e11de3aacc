import ScriptConsole.Evaluation.Interpreter
import ScriptConsole.Proofs.Expr.Parsing

namespace ScriptConsole

/-- The name is a token of the source. -/
def Mentions (source name : String) : Prop :=
  ∃ t ∈ tokenize source, t.kind = .ident ∧ t.text = name

instance (source name : String) : Decidable (Mentions source name) :=
  inferInstanceAs (Decidable (∃ t ∈ tokenize source, t.kind = .ident ∧ t.text = name))

section Frame
variable (r : Registry) (s s' : Scope)

/-- Both scopes resolve the names among the terminals alike. -/
def Registry.Alike (r : Registry) (s s' : Scope) (w : List Terminal) : Prop :=
  ∀ name, .ident name ∈ w → s'.resolve r.catalog name = s.resolve r.catalog name

theorem Registry.Alike.mono {r : Registry} {s s' : Scope} {v w : List Terminal}
    (h : r.Alike s s' w) (hvw : v ⊆ w) : r.Alike s s' v :=
  fun name hname => h name (hvw hname)

theorem denote_member_congr (e e' : Expr) (name : String) (args : Option (List Expr))
    (he : r.denote s' e' = r.denote s e)
    (hargs : ∀ list ∈ args, r.denoteValues s' list = r.denoteValues s list) :
    r.denote s' (e'.member name args) = r.denote s (e.member name args) := by
  cases args with
  | none => simp only [Expr.member, Registry.denote, he]
  | some list => simp only [Expr.member, Registry.denote, he, hargs list rfl]

variable {r s s'}

mutual

theorem ExprTree.denote_congr (t : ExprTree) (h : r.Alike s s' t.yield) :
    r.denote s' t.expr = r.denote s t.expr := by
  cases t with
  | mk first links =>
    have hfirst := first.denote_congr (h.mono (List.subset_append_left _ _))
    exact links.denote_congr (h.mono (List.subset_append_right _ _)) _ _ hfirst
termination_by structural t

theorem PrimaryTree.denote_congr (t : PrimaryTree) (h : r.Alike s s' t.yield) :
    r.denote s' t.expr = r.denote s t.expr := by
  cases t with
  | string | integer | negative | word => rfl
  | parens inner =>
    refine inner.denote_congr (h.mono ?_)
    exact List.subset_cons_of_subset _ (List.subset_append_left _ _)
  | named text _ call =>
    cases hcall : call.exprs with
    | none =>
      have htext := h text List.mem_cons_self
      simp only [PrimaryTree.expr, hcall, Expr.named, Registry.denote, htext]
    | some args => simp only [PrimaryTree.expr, hcall, Expr.named, Registry.denote]
termination_by structural t

theorem LinksTree.denote_congr (t : LinksTree) (h : r.Alike s s' t.yield) (e e' : Expr)
    (he : r.denote s' e' = r.denote s e) :
    r.denote s' (t.onto e') = r.denote s (t.onto e) := by
  cases t with
  | nil => exact he
  | cons member call links =>
    have htail : call.yield ++ links.yield ⊆ (LinksTree.cons member call links).yield :=
      List.subset_cons_of_subset _ (List.subset_cons_of_subset _ (List.Subset.refl _))
    have hinner := h.mono htail
    have hargs := call.denote_congr (hinner.mono (List.subset_append_left _ _))
    refine links.denote_congr (hinner.mono (List.subset_append_right _ _)) _ _ ?_
    exact denote_member_congr r s s' e e' member call.exprs he hargs
termination_by structural t

theorem CallTree.denote_congr (t : CallTree) (h : r.Alike s s' t.yield) :
    ∀ list ∈ t.exprs, r.denoteValues s' list = r.denoteValues s list := by
  cases t with
  | absent => nofun
  | empty =>
    intro list hlist
    cases hlist
    rfl
  | args list =>
    intro exprs hexprs
    cases hexprs
    refine list.denote_congr (h.mono ?_)
    exact List.subset_cons_of_subset _ (List.subset_append_left _ _)
termination_by structural t

theorem ArgsTree.denote_congr (t : ArgsTree) (h : r.Alike s s' t.yield) :
    r.denoteValues s' t.exprs = r.denoteValues s t.exprs := by
  cases t with
  | one arg => simp only [ArgsTree.exprs, Registry.denoteValues, arg.denote_congr h]
  | cons arg list =>
    have harg := arg.denote_congr (h.mono (List.subset_append_left _ _))
    have hlist := list.denote_congr (h.mono
      (List.subset_append_of_subset_right _ (List.subset_cons_self _ _)))
    simp only [ArgsTree.exprs, Registry.denoteValues, harg, hlist]
termination_by structural t

end

variable (r s s')

theorem mentions_of_terminal {source name : String}
    (h : .ident name ∈ (significantTokens source).map Token.terminal) : Mentions source name := by
  obtain ⟨t, ht, hname⟩ := List.mem_map.1 h
  exact ⟨t, (List.mem_filter.1 ht).1, (terminal_eq_ident t name).1 hname⟩

theorem interpret_congr (source : String)
    (h : ∀ name, Mentions source name → s'.resolve r.catalog name = s.resolve r.catalog name) :
    r.interpret s' source = r.interpret s source := by
  unfold Registry.interpret
  split
  · rfl
  · next e hparse =>
    obtain ⟨t, hyield, rfl, _⟩ := (parseExpression_iff source e).1 hparse
    have halike : r.Alike s s' t.yield := by
      intro name hname
      rw [← hyield] at hname
      exact h name (mentions_of_terminal hname)
    simp only [Registry.evalExpr, t.denote_congr halike]

theorem binding?_bind (s : Scope) (n name : String) (v : Value) :
    (s.bind n v).binding? name = if n = name then some v else s.binding? name :=
  Entries.get?_set s.bindings n name v

theorem resolve_bind (s : Scope) (n : String) (v : Value) (catalog : Catalog) (name : String)
    (h : n ≠ name) : (s.bind n v).resolve catalog name = s.resolve catalog name := by
  unfold Scope.resolve
  rw [binding?_bind, if_neg h]
  rfl

theorem interpret_bind (n : String) (v : Value) (source : String) (h : ¬ Mentions source n) :
    r.interpret (s.bind n v) source = r.interpret s source := by
  refine interpret_congr r s (s.bind n v) source ?_
  intro name hname
  refine resolve_bind s n v r.catalog name ?_
  rintro rfl
  exact h hname

end Frame
end ScriptConsole
