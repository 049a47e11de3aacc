import Mathlib.Data.List.Induction
import ScriptConsole.Proofs.Member.Listing

namespace ScriptConsole

namespace Entries
variable {α : Type}

/-- Stores the values one after the other. -/
def ofWrites (writes : List (String × α)) : Entries α :=
  writes.foldl (fun entries w => entries.set w.1 w.2) []

theorem ofWrites_concat (writes : List (String × α)) (w : String × α) :
    ofWrites (writes ++ [w]) = (ofWrites writes).set w.1 w.2 := by
  simp [ofWrites]

theorem get?_ofWrites (writes : List (String × α)) (name : String) :
    (ofWrites writes).get? name = (writes.reverse.find? (·.1 == name)).map Prod.snd := by
  induction writes using List.reverseRecOn with
  | nil => rfl
  | append_singleton writes w ih =>
    rw [ofWrites_concat, get?_set, ih, List.reverse_append, List.reverse_singleton,
      List.singleton_append, List.find?_cons]
    by_cases h : w.1 = name
    · simp [h]
    · have hne : (w.1 == name) = false := by simpa using h
      rw [if_neg h, hne]

end Entries

theorem eraseDups_concat (xs : List String) (x : String) :
    (xs ++ [x]).eraseDups = Scope.appendNew xs.eraseDups x := by
  rw [List.eraseDups_append, Scope.appendNew]
  by_cases h : x ∈ xs <;> simp [List.removeAll, List.eraseDups_cons, h]

theorem nodup_appendNew {xs : List String} (h : xs.Nodup) (x : String) :
    (Scope.appendNew xs x).Nodup := by
  unfold Scope.appendNew
  split
  · exact h
  · next hx =>
    refine List.nodup_append.2 ⟨h, List.nodup_singleton x, ?_⟩
    intro y hy z hz
    rw [List.mem_singleton.1 hz]
    exact ne_of_mem_of_not_mem hy hx

theorem nodup_eraseDups (xs : List String) : xs.eraseDups.Nodup := by
  induction xs using List.reverseRecOn with
  | nil => exact List.nodup_nil
  | append_singleton xs x ih =>
    rw [eraseDups_concat]
    exact nodup_appendNew ih x

/-- A search that meets the first of equal elements needs no others. -/
theorem find?_eraseDups (p : String → Bool) (xs : List String) :
    xs.eraseDups.find? p = xs.find? p := by
  induction xs using List.reverseRecOn with
  | nil => rfl
  | append_singleton xs x ih =>
    rw [eraseDups_concat, Scope.appendNew, List.find?_append]
    split
    · next hold =>
      have hx : x ∈ xs := List.mem_eraseDups.1 hold
      rw [ih]
      cases hfind : xs.find? p with
      | some y => rfl
      | none => simpa using List.find?_eq_none.1 hfind x hx
    · rw [List.find?_append, ih]

namespace Entries
variable {α : Type}

theorem names_ofWrites (writes : List (String × α)) :
    (ofWrites writes).names = (writes.map Prod.fst).eraseDups := by
  induction writes using List.reverseRecOn with
  | nil => rfl
  | append_singleton writes w ih =>
    rw [ofWrites_concat, names_set, ih, List.map_append, List.map_singleton, eraseDups_concat]
    rfl

theorem nodup_names_ofWrites (writes : List (String × α)) : (ofWrites writes).names.Nodup := by
  rw [names_ofWrites]
  exact nodup_eraseDups _

theorem filterMap_names {β : Type} (f : String → α → β) (entries : Entries α)
    (h : entries.names.Nodup) :
    (entries.names.filterMap fun name => (entries.get? name).map (f name)) =
      entries.map fun e => f e.1 e.2 := by
  induction entries with
  | nil => rfl
  | cons e rest ih =>
    obtain ⟨hnew, hrest⟩ := List.nodup_cons.1 h
    have hfront : get? e.1 (e :: rest) = some e.2 := by simp [get?]
    have hbehind : ∀ name ∈ names rest, get? name (e :: rest) = get? name rest := by
      intro name hname
      have hne : e.1 ≠ name := by
        rintro rfl
        exact hnew hname
      rw [get?, if_neg hne]
    have htail : ((names rest).filterMap fun name => (get? name (e :: rest)).map (f name)) =
        (names rest).filterMap fun name => (get? name rest).map (f name) := by
      refine List.filterMap_congr ?_
      intro name hname
      rw [hbehind name hname]
    have hnames : names (e :: rest) = e.1 :: names rest := rfl
    rw [hnames, List.filterMap_cons, hfront, htail, ih hrest]
    rfl

end Entries

namespace Scope

/-- One change of a scope. -/
inductive Change where
  | bind (name : String) (v : Value)
  | importClass (q : QualifiedName)
  | importPackage (path : QualifiedName)
  | addRoot (root : String)

def apply (s : Scope) : Change → Scope
  | .bind name v => s.bind name v
  | .importClass q => s.importClass q
  | .importPackage path => s.importPackage path
  | .addRoot root => s.addRoot root

/-- What the changes make of a new scope. -/
def after (history : List Change) : Scope := history.foldl apply empty

namespace Change

def binding? : Change → Option (String × Value)
  | bind name v => some (name, v)
  | _ => none

def class? : Change → Option QualifiedName
  | importClass q => some q
  | _ => none

def package? : Change → Option QualifiedName
  | importPackage path => some path
  | _ => none

def root? : Change → Option String
  | addRoot root => some root
  | _ => none

end Change

section History
variable (history : List Change)

/-- All that was ever bound, imported or added, in the order in which it came. -/
def bindingsIn : List (String × Value) := history.filterMap Change.binding?
def classesIn : List QualifiedName := history.filterMap Change.class?
def packagesIn : List QualifiedName := history.filterMap Change.package?
def rootsIn : List String := history.filterMap Change.root?

/-- The value bound to `name` last. -/
def lastBound (name : String) : Option Value :=
  ((bindingsIn history).reverse.find? (·.1 == name)).map Prod.snd

/-- The class imported last of those with this simple name. -/
def lastImported (name : String) : Option QualifiedName :=
  (classesIn history).reverse.find? (QualifiedName.simple · == name)

/-- The package imported first of those with a class of this simple name. -/
def firstHolding (catalog : Catalog) (name : String) : Option QualifiedName :=
  (packagesIn history).find? fun path => catalog.hasClass (QualifiedName.join path name)

def classWrites : List (String × QualifiedName) :=
  (classesIn history).map fun q => (QualifiedName.simple q, q)

theorem after_concat (change : Change) :
    after (history ++ [change]) = (after history).apply change := by
  simp [after]

/-- The tables of a scope by its history. -/
theorem after_eq :
    after history = ⟨.ofWrites (bindingsIn history), .ofWrites (classWrites history),
      (packagesIn history).eraseDups, consoleKeywords, (rootsIn history).eraseDups⟩ := by
  induction history using List.reverseRecOn with
  | nil => rfl
  | append_singleton history change ih =>
    rw [after_concat, ih]
    simp only [bindingsIn, classWrites, classesIn, packagesIn, rootsIn, List.filterMap_append,
      List.filterMap_cons, List.filterMap_nil]
    -- a change adds to the history of its own table and to no other
    cases change <;>
      simp [apply, bind, importClass, importPackage, addRoot, Change.binding?, Change.class?,
        Change.package?, Change.root?, Entries.ofWrites_concat, eraseDups_concat]

theorem binding?_after (name : String) :
    (after history).binding? name = lastBound history name := by
  rw [after_eq, binding?, Entries.get?_ofWrites, lastBound]

theorem importedClass?_after (name : String) :
    (after history).importedClass? name = lastImported history name := by
  rw [after_eq, importedClass?, Entries.get?_ofWrites, classWrites, ← List.map_reverse,
    List.find?_map, Option.map_map, lastImported]
  exact Option.map_id'

theorem packageClass?_after (catalog : Catalog) (name : String) :
    (after history).packageClass? catalog name =
      (firstHolding history catalog name).map (QualifiedName.join · name) := by
  rw [after_eq, packageClass?, List.find?_map, firstHolding]
  exact congrArg _ (find?_eraseDups _ _)

theorem mem_rootsIn (root : String) : root ∈ (after history).roots ↔ root ∈ rootsIn history := by
  rw [after_eq]
  exact List.mem_eraseDups

/-- Bindings, imported classes, console statements and roots, each in the order in which they came
first. -/
def listing : List Member :=
  ((bindingsIn history).map Prod.fst).eraseDups.map (fun name => ⟨name, .binding, ""⟩) ++
    ((classesIn history).map QualifiedName.simple).eraseDups.filterMap (fun name =>
      (lastImported history name).map fun q => ⟨name, .type, q⟩) ++
    ["importClass", "importPackage"].map (fun name => ⟨name, .keyword, ""⟩) ++
    (rootsIn history).eraseDups.map (fun name => ⟨name, .package, ""⟩)

theorem members_topLevel_after :
    (after history).topLevel.members =
      (listing history).eraseDupsBy (fun a b => a.name == b.name) := by
  have hbindings : (after history).bindings.map (fun b => (⟨b.1, .binding, ""⟩ : Member)) =
      ((bindingsIn history).map Prod.fst).eraseDups.map fun name => ⟨name, .binding, ""⟩ := by
    rw [after_eq, ← Entries.names_ofWrites, Entries.names, List.map_map]
    rfl
  have hclasses : (after history).importedClasses.map (fun c => (⟨c.1, .type, c.2⟩ : Member)) =
      ((classesIn history).map QualifiedName.simple).eraseDups.filterMap fun name =>
        (lastImported history name).map fun q => ⟨name, .type, q⟩ := by
    have hnames : (after history).importedClasses.names =
        ((classesIn history).map QualifiedName.simple).eraseDups := by
      rw [after_eq, Entries.names_ofWrites, classWrites, List.map_map]
      rfl
    have hdistinct : (after history).importedClasses.names.Nodup := by
      rw [after_eq]
      exact Entries.nodup_names_ofWrites _
    rw [← hnames]
    simp only [← importedClass?_after]
    exact (Entries.filterMap_names (fun name q => (⟨name, .type, q⟩ : Member)) _ hdistinct).symm
  have hkeywords : (after history).keywords = consoleKeywords := by rw [after_eq]
  have hroots : (after history).roots = (rootsIn history).eraseDups := by rw [after_eq]
  rw [topLevel, members_ofList, hbindings, hclasses, hkeywords, hroots]
  rfl

/-- What a name refers to is decided by the history of the scope.  It is the value bound to it last;
else the class imported last under it; else the class of this name in the package imported first
that has one; else the package of this name, when it was added as a root or the catalog knows it.
Listed at top level is, of each name, the first in the order of the listing. -/
theorem resolve_after :
    (∀ (catalog : Catalog) (name : String), (after history).resolve catalog name =
      ((lastBound history name).map Referent.value).or
        (((lastImported history name).map Referent.type).or
          (((firstHolding history catalog name).map fun path =>
              Referent.type (QualifiedName.join path name)).or
            (if name ∈ rootsIn history ∨ catalog.isPackage name = true then
              some (.package name) else none)))) ∧
    (after history).topLevel.members =
      (listing history).eraseDupsBy fun a b => a.name == b.name := by
  refine ⟨?_, members_topLevel_after history⟩
  intro catalog name
  rw [resolve, binding?_after, importedClass?_after, packageClass?_after]
  cases lastBound history name with
  | some v => rfl
  | none =>
    cases lastImported history name with
    | some q => rfl
    | none =>
      cases firstHolding history catalog name with
      | some path => rfl
      | none => simp [mem_rootsIn]

end History

end Scope
end ScriptConsole
