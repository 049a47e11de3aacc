import ScriptConsole.Proofs.Chain.Path
import ScriptConsole.Proofs.Registry.Packages
import ScriptConsole.Proofs.Resolution.Step
import ScriptConsole.Proofs.Session.Reachable

namespace ScriptConsole

open QualifiedName

theorem intercalate_join (path : QualifiedName) (name : String) (names : List String)
    (hpath : path ≠ "") :
    ".".intercalate (join path name :: names) = ".".intercalate (path :: name :: names) := by
  have hjoin : join path name = path ++ "." ++ name := by
    rw [← String.toList_inj, toList_join hpath]
    simp
  cases names with
  | nil => simp [hjoin]
  | cons next names => simp only [String.intercalate_cons_cons, hjoin, String.append_assoc]

theorem path_front (path : QualifiedName) (names : List String) (hnames : names ≠ []) :
    path.toList ++ ['.'] <+: (".".intercalate (path :: names)).toList := by
  cases names with
  | nil => exact (hnames rfl).elim
  | cons name names =>
    refine ⟨(".".intercalate (name :: names)).toList, ?_⟩
    rw [String.intercalate_cons_cons]
    simp

theorem follow_fields (env : Environment) (current : Reference) (source : String)
    (segs : List Segment) (h : ∀ seg ∈ segs, seg.isCall = false) :
    (env.follow current source segs).reference =
      (segs.map Segment.name).foldl env.followField current := by
  induction segs generalizing current source with
  | nil => rfl
  | cons seg segs ih =>
    obtain ⟨hseg, hsegs⟩ := List.forall_mem_cons.1 h
    rw [Environment.follow, List.map_cons, List.foldl_cons]
    split
    · next hnone =>
      cases current with
      | unresolved =>
        rw [Environment.followField, ← ih _ source hsegs, follow_unresolved]
      | topLevel | value _ _ | static _ | union _ | package _ => cases hnone
    · dsimp only
      rw [ih _ _ hsegs, Environment.step, if_neg (by simp [hseg])]

/-- Of the names behind `path`, `front` leads to the first class. -/
structure Registry.LeadsTo (r : Registry) (path : QualifiedName) (front : List String) : Prop where
  nonempty : front ≠ []
  registered : r.hasClass (".".intercalate (path :: front)) = true
  first : ∀ part, part <+: front → part ≠ [] → part ≠ front →
    r.hasClass (".".intercalate (path :: part)) = false

theorem leadsTo_singleton (r : Registry) (path : QualifiedName) (name : String) (hpath : path ≠ "")
    (hclass : r.hasClass (join path name) = true) : r.LeadsTo path [name] := by
  refine ⟨List.cons_ne_nil _ _, ?_, ?_⟩
  · rw [← intercalate_join path name [] hpath]
    simpa using hclass
  · intro part hpart hne hproper
    rcases List.prefix_cons_iff.1 hpart with rfl | ⟨rest, rfl, hrest⟩
    · exact (hne rfl).elim
    · rw [List.prefix_nil.1 hrest] at hproper
      exact (hproper rfl).elim

theorem Registry.LeadsTo.cons {r : Registry} {path : QualifiedName} {name : String}
    {front : List String} (h : r.LeadsTo (join path name) front) (hpath : path ≠ "")
    (hfree : r.hasClass (join path name) = false) : r.LeadsTo path (name :: front) := by
  refine ⟨List.cons_ne_nil _ _, ?_, ?_⟩
  · rw [← intercalate_join path name front hpath]
    exact h.registered
  · intro part hpart hne hproper
    rcases List.prefix_cons_iff.1 hpart with rfl | ⟨rest, rfl, hrest⟩
    · exact (hne rfl).elim
    · rw [← intercalate_join path name rest hpath]
      by_cases hnil : rest = []
      · simpa [hnil] using hfree
      · exact h.first rest hrest hnil fun heq => hproper (by rw [heq])

/-- The names behind a package lead on to the first class on the way. -/
theorem walk_leadsTo (r : Registry) (hr : r.Housed) (s : Scope) (path : QualifiedName)
    (names : List String) (hpath : path ≠ "") (hnames : names ≠ [])
    (hclass : r.hasClass (".".intercalate (path :: names)) = true) :
    ∃ front rest, names = front ++ rest ∧ r.LeadsTo path front ∧
      names.foldl (r.live s).followField (.package path) =
        rest.foldl (r.live s).followField (.static (".".intercalate (path :: front))) := by
  induction names generalizing path with
  | nil => exact (hnames rfl).elim
  | cons name names ih =>
    rw [← intercalate_join path name names hpath] at hclass
    rw [List.foldl_cons, followField_package]
    by_cases hinner : r.hasClass (join path name) = true
    · refine ⟨[name], names, rfl, leadsTo_singleton r path name hpath hinner, ?_⟩
      rw [if_pos hinner, ← intercalate_join path name [] hpath, String.intercalate_singleton]
    · have hmore : names ≠ [] := by
        rintro rfl
        exact hinner (by simpa using hclass)
      have hjoin : join path name ≠ "" := by
        rw [ne_eq, ← String.toList_inj, toList_join hpath]
        simp
      have hpackage := hr.isPackage hclass hjoin (path_front (join path name) names hmore)
      obtain ⟨front, rest, rfl, hleads, hwalk⟩ := ih (join path name) hjoin hmore hclass
      refine ⟨name :: front, rest, rfl, hleads.cons hpath (by simpa using hinner), ?_⟩
      rw [if_neg hinner, if_pos hpackage, hwalk, intercalate_join path name front hpath]

/-- Before anything is bound or imported, a name that is a package refers to it. -/
theorem resolveHead_new (r : Registry) (config : CompletionConfig) (name : String)
    (h : r.isPackage name = true) :
    (Session.new r config).environment.resolveHead (.name name) = .package name := by
  obtain ⟨roots, hscope⟩ := Session.new_scope r config
  have hknown : (Session.new r config).registry.catalog.isPackage name = true := h
  refine resolveHead_name (Session.new r config).environment name (.package name) ?_
  rw [Session.environment_eq, Registry.live, hscope]
  simp [Scope.empty, Scope.resolve, Scope.binding?, Scope.importedClass?, Scope.packageClass?,
    Entries.get?, hknown]

/-- The full name of a class, with a dot behind it, is resolved as the first class on the way with the
other names as fields behind it. -/
theorem resolve_fullName (calls : List Registration) (config : CompletionConfig) (first : String)
    (names : List String) (hids : ∀ name ∈ first :: names, isIdentifier name = true)
    (hnames : names ≠ [])
    (hclass : (Registry.build calls).hasClass (".".intercalate (first :: names)) = true) :
    ∃ chain front rest, splitChain (".".intercalate (first :: names) ++ ".") = .ok chain ∧
      names = front ++ rest ∧ (Registry.build calls).LeadsTo first front ∧
      ((Session.new (Registry.build calls) config).environment.resolve chain).reference =
        rest.foldl (Session.new (Registry.build calls) config).environment.followField
          (.static (".".intercalate (first :: front))) := by
  obtain ⟨chain, hsplit, hhead, hsegments, hcalls, _⟩ := splitChain_path first names hids
  have hfirst : first ≠ "" := by
    rintro rfl
    exact absurd (hids "" List.mem_cons_self) (by decide)
  have hhoused := Registry.build_housed calls
  have hpackage := hhoused.isPackage hclass hfirst (path_front first names hnames)
  obtain ⟨front, rest, hcut, hleads, hwalk⟩ := walk_leadsTo _ hhoused
    (Session.new (Registry.build calls) config).scope first names hfirst hnames hclass
  refine ⟨chain, front, rest, hsplit, hcut, hleads, ?_⟩
  rw [Environment.resolve, follow_fields _ _ _ _ hcalls, hsegments, hhead,
    resolveHead_new _ config first hpackage]
  exact hwalk

/-- In a new session a class is reached by its full name, unless a part of the name in front, of two
or more components, is itself the name of a class. -/
theorem class_reached (calls : List Registration) (config : CompletionConfig)
    (names : List String) (hlength : 2 ≤ names.length)
    (hids : ∀ name ∈ names, isIdentifier name = true)
    (hclass : (Registry.build calls).hasClass (".".intercalate names) = true)
    (hfree : ∀ k, 2 ≤ k → k < names.length →
      (Registry.build calls).hasClass (".".intercalate (names.take k)) = false) :
    ∃ chain, splitChain (".".intercalate names ++ ".") = .ok chain ∧
      ((Session.new (Registry.build calls) config).environment.resolve chain).reference =
        .static (".".intercalate names) := by
  cases names with
  | nil => cases hlength
  | cons first names =>
    have hnames : names ≠ [] := by
      rintro rfl
      exact Nat.lt_irrefl _ hlength
    obtain ⟨chain, front, rest, hsplit, rfl, hleads, hwalk⟩ :=
      resolve_fullName calls config first names hids hnames hclass
    obtain rfl : rest = [] := by
      -- the first class on the way would be a part of the name in front
      by_contra hrest
      have hfront := List.length_pos_iff.2 hleads.nonempty
      have hbehind := List.length_pos_iff.2 hrest
      have hnone := hfree (front.length + 1) (by omega) (by simp; omega)
      rw [List.take_succ_cons, List.take_left] at hnone
      exact Bool.noConfusion (hleads.registered.symm.trans hnone)
    rw [List.append_nil] at hsplit ⊢
    exact ⟨chain, hsplit, hwalk⟩

def utilCalls : List Registration :=
  [.type { name := "java.Object" }, .type { name := "java.util.List" }]

theorem class_reached_list :
    (Registry.build utilCalls).hasClass "java.util.List" = true ∧
      ∃ chain, splitChain "java.util.List." = .ok chain ∧
        ((Session.new (Registry.build utilCalls) {}).environment.resolve chain).reference =
          .static "java.util.List" := by
  have hclass : (Registry.build utilCalls).hasClass "java.util.List" = true := by decide +kernel
  have hutil : (Registry.build utilCalls).hasClass "java.util" = false := by decide +kernel
  refine ⟨hclass, class_reached utilCalls {} ["java", "util", "List"] (by decide)
    (by decide +kernel) hclass ?_⟩
  intro k hk hlength
  obtain rfl : k = 2 := Nat.le_antisymm (Nat.le_of_lt_succ hlength) hk
  exact hutil

def nestedCalls : List Registration :=
  [.type { name := "a.Outer" }, .type { name := "a.Outer.Inner" }]

/-- The outer class is reached in front of the package of the inner one. -/
theorem nested_class_unreached :
    (Registry.build nestedCalls).hasClass "a.Outer.Inner" = true ∧
      ¬ ∃ chain, splitChain "a.Outer.Inner." = .ok chain ∧
        ((Session.new (Registry.build nestedCalls) {}).environment.resolve chain).reference =
          .static "a.Outer.Inner" := by
  refine ⟨by decide +kernel, ?_⟩
  rintro ⟨chain, hsplit, hstatic⟩
  have hunresolved : (splitChain "a.Outer.Inner.").toOption.map (fun chain =>
      ((Session.new (Registry.build nestedCalls) {}).environment.resolve
        chain).reference.isUnresolved) = some true := by decide +kernel
  rw [hsplit] at hunresolved
  simp [Except.toOption, hstatic, Reference.isUnresolved] at hunresolved

end ScriptConsole
