import ScriptConsole.Registry.Basic

namespace ScriptConsole

/-- Classes met for the first time, and those not met yet. -/
structure Discovery where
  found : List ClassDecl
  unseen : List ClassDecl

/-- Looks the names up, in order, among the classes not met yet. -/
def discover (unseen : List ClassDecl) : List String → Discovery
  | [] => ⟨[], unseen⟩
  | name :: names =>
    match unseen.find? (·.name == name) with
    | none => discover unseen names
    | some c =>
      let d := discover (unseen.filter (·.name != name)) names
      ⟨c :: d.found, d.unseen⟩

theorem length_discover_le (unseen : List ClassDecl) (names : List String) :
    (discover unseen names).found.length + (discover unseen names).unseen.length ≤
      unseen.length := by
  induction names generalizing unseen with
  | nil => simp [discover]
  | cons name names ih =>
    rw [discover]
    split
    · exact ih unseen
    · next c hc =>
      have hlt : (unseen.filter (·.name != name)).length < unseen.length := by
        refine List.length_filter_lt_length_iff_exists.2 ⟨c, List.mem_of_find?_eq_some hc, ?_⟩
        have := List.find?_some hc
        simpa using this
      have := ih (unseen.filter (·.name != name))
      simp only [List.length_cons]
      omega

/-- The classes of `queue` and their supertypes among `unseen`, level by level. -/
def breadthFirst (queue unseen : List ClassDecl) : List ClassDecl :=
  match queue with
  | [] => []
  | c :: queue =>
    let d := discover unseen c.supertypes
    c :: breadthFirst (queue ++ d.found) d.unseen
termination_by queue.length + unseen.length
decreasing_by
  have := length_discover_le unseen c.supertypes
  simp only [List.length_append, List.length_cons]
  omega

/-- A class and its supertypes, nearest first; nothing when the class is unknown.  Supertypes that are
not registered are left out, and every class comes once, also when the declarations run in a
circle. -/
def Registry.hierarchy (r : Registry) (name : String) : List ClassDecl :=
  match r.class? name with
  | none => []
  | some c => breadthFirst [c] (r.classes.filter (·.name != name))

theorem Registry.hierarchy_eq_nil_iff (r : Registry) (name : String) :
    r.hierarchy name = [] ↔ r.class? name = none := by
  unfold hierarchy
  cases r.class? name with
  | none => simp
  | some c => simp [breadthFirst]

end ScriptConsole
