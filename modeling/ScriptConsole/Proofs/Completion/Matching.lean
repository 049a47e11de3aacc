import ScriptConsole.Proofs.Chain.Spans
import ScriptConsole.Proofs.Resolution.Offered
import ScriptConsole.Proofs.Session.Consistency
import ScriptConsole.Proofs.Text.ByteOrder

namespace ScriptConsole

/-- `line` is the longest part at the front of `input` that takes `limit` bytes at the most and cuts
no character. -/
structure LongestFitting (input : String) (limit : Nat) (line : String) : Prop where
  front : line.toList <+: input.toList
  fits : line.utf8ByteSize ≤ limit
  longest : ∀ part : String, part.toList <+: input.toList → part.utf8ByteSize ≤ limit →
    part.utf8ByteSize ≤ line.utf8ByteSize

theorem longestFitting_lineAt (input : String) (cursor : Nat) :
    LongestFitting input cursor (lineAt input cursor) := by
  rw [lineAt]
  refine ⟨?_, ?_, ?_⟩
  · rw [String.toList_ofList]
    exact takeBytes_isPrefix cursor input.toList
  · rw [utf8ByteSize_ofList]
    exact byteSize_takeBytes_le cursor input.toList
  · intro part hpart hsize
    rw [← byteSize_toList] at hsize
    obtain ⟨more, hmore⟩ := isPrefix_takeBytes hpart hsize
    rw [utf8ByteSize_ofList, ← byteSize_toList, ← hmore, byteSize_append]
    exact Nat.le_add_right _ _

theorem lineAt_end (line : String) : lineAt line line.utf8ByteSize = line := by
  have hle : byteSize line.toList ≤ line.utf8ByteSize := Nat.le_of_eq (byteSize_toList line)
  have hwhole := (takeBytes_isPrefix line.utf8ByteSize line.toList).eq_of_length_le
    (isPrefix_takeBytes List.prefix_rfl hle).length_le
  rw [lineAt, hwhole, String.ofList_toList]

/-- The reference has a member of the name.  At top level these are what the scope holds, in a
package what the catalog lists in it, of a value and of a class the members of the type, and of a
union the members of one of the types. -/
def Reference.Has (scope : Scope) (catalog : Catalog) (name : String) : Reference → Prop
  | topLevel => name ∈ scope.bindings.names ∨ name ∈ scope.importedClasses.names ∨
      name ∈ scope.keywords ∨ name ∈ scope.roots
  | package path => ∃ m ∈ catalog.children path, m.name = name
  | value _ type | static type =>
    ∃ members, catalog.membersOf type = some members ∧ name ∈ members.names
  | union types => ∃ type ∈ types, ∃ members, catalog.membersOf type = some members ∧
      name ∈ members.names
  | unresolved => False

theorem mem_names_members (r : Reference) (scope : Scope) (catalog : Catalog) (name : String) :
    name ∈ (r.members scope catalog).names ↔ r.Has scope catalog name := by
  cases r with
  | topLevel => exact scope.mem_names_topLevel name
  | package path => exact MemberSet.mem_names_ofList.trans List.mem_map
  | value v type =>
    refine (members_typed (.value v type) trivial scope catalog name).trans ?_
    simp [Reference.Has, Reference.types]
  | static type =>
    refine (members_typed (.static type) trivial scope catalog name).trans ?_
    simp [Reference.Has, Reference.types]
  | union types => exact members_typed (.union types) trivial scope catalog name
  | unresolved => simp [Reference.Has, Reference.types, Reference.members, MemberSet.names,
      MemberSet.empty]

/-- In the order of their bytes, and none twice. -/
def Ascending (names : List String) : Prop :=
  names.Pairwise fun a b => utf8Bytes a < utf8Bytes b

section Candidates
variable (members : MemberSet) (stem : String)

theorem nodup_labels : ((candidates members stem).map CompletionItem.label).Nodup := by
  have hperm := (List.mergeSort_perm
    ((members.members.filter fun m => stem.toList.isPrefixOf m.name.toList).map
      CompletionItem.ofMember) fun a b => a.label ≤ b.label).map CompletionItem.label
  refine hperm.nodup_iff.2 ?_
  rw [List.map_map]
  exact (List.filter_sublist.map _).nodup members.nodup

theorem sorted_candidates : (candidates members stem).Pairwise fun a b => a.label < b.label := by
  have hsorted := pairwise_mergeSort_key CompletionItem.label
    ((members.members.filter fun m => stem.toList.isPrefixOf m.name.toList).map
      CompletionItem.ofMember)
  have hdistinct := List.pairwise_map.1 (nodup_labels members stem)
  exact (hsorted.and hdistinct).imp fun h => Std.lt_of_le_of_ne h.1 h.2

theorem ascending_labels : Ascending ((candidates members stem).map CompletionItem.label) :=
  List.pairwise_map.2 ((sorted_candidates members stem).imp utf8Bytes_lt)

theorem mem_labels (name : String) :
    name ∈ (candidates members stem).map CompletionItem.label ↔
      name ∈ members.names ∧ stem.toList <+: name.toList := by
  simp only [List.mem_map, mem_candidates, MemberSet.names]
  constructor
  · rintro ⟨_, ⟨m, hm, hstem, rfl⟩, rfl⟩
    exact ⟨⟨m, hm, rfl⟩, hstem⟩
  · rintro ⟨⟨m, hm, rfl⟩, hstem⟩
    exact ⟨_, ⟨m, hm, hstem, rfl⟩, rfl⟩

theorem get?_of_mem_candidates (i : CompletionItem) (h : i ∈ candidates members stem) :
    ∃ m, members.get? i.label = some m ∧ i = .ofMember m := by
  obtain ⟨m, hm, _, rfl⟩ := (mem_candidates members stem i).1 h
  exact ⟨m, get?_of_mem members m hm, rfl⟩

end Candidates

theorem map_cap {α : Type} (f : CompletionItem → α) (config : CompletionConfig)
    (items : List CompletionItem) :
    (config.cap items).map f = match config.limit with
      | none => items.map f
      | some n => (items.map f).take n := by
  unfold CompletionConfig.cap
  cases config.limit with
  | none => rfl
  | some n => exact List.map_take

theorem cap_sublist (config : CompletionConfig) (items : List CompletionItem) :
    (config.cap items).Sublist items := by
  unfold CompletionConfig.cap
  cases config.limit with
  | none => exact .refl items
  | some n => exact List.take_sublist n items

namespace Environment

/-- What the items for a chain are: for the names that the reference in front has, as far as they
begin with what is being typed, and of these the first when their number is limited. -/
structure Matches (env : Environment) (config : CompletionConfig) (chain : AccessChain)
    (items : List CompletionItem) : Prop where
  ascending : Ascending (items.map CompletionItem.label)
  /-- They are the first of all the names in order. -/
  labels : ∃ names, Ascending names ∧
    (∀ name, name ∈ names ↔ (env.resolve chain).reference.Has env.scope env.catalog name ∧
      chain.stem.toList <+: name.toList) ∧
    items.map CompletionItem.label = match config.limit with
      | none => names
      | some n => names.take n
  /-- Each shows the member found under its label. -/
  members : ∀ i ∈ items, ∃ m,
    ((env.resolve chain).reference.members env.scope env.catalog).get? i.label = some m ∧
      i = .ofMember m

theorem matches_completeLine (env : Environment) (config : CompletionConfig) {line : String}
    {chain : AccessChain} (h : splitChain line = .ok chain) :
    env.Matches config chain (env.completeLine config line).items := by
  rw [completeLine, h]
  dsimp only
  generalize hset : (env.resolve chain).reference.members env.scope env.catalog = set
  have hascending := ascending_labels set chain.stem
  refine ⟨?_, ?_, ?_⟩
  · exact hascending.sublist ((cap_sublist config _).map CompletionItem.label)
  · refine ⟨_, hascending, ?_, map_cap _ _ _⟩
    intro name
    rw [mem_labels, ← hset, mem_names_members]
  · intro i hi
    rw [hset]
    exact get?_of_mem_candidates set chain.stem i ((cap_sublist config _).subset hi)

theorem completion_end (env : Environment) (config : CompletionConfig) {line : String}
    {chain : AccessChain} (h : splitChain line = .ok chain) :
    env.completion config line line.utf8ByteSize =
      ⟨config.cap (candidates ((env.resolve chain).reference.members env.scope env.catalog)
        chain.stem), (env.resolve chain).asked⟩ := by
  rw [completion, lineAt_end, completeLine, h]

/-- Completion looks at the longest line that fits in front of the cursor.  When this cannot be
split there are no items; otherwise they are those of the matching members, and completing appends
their texts to what there was and yields their number. -/
theorem items_exact (env : Environment) (config : CompletionConfig) (input : String)
    (cursor : Nat) (out : List String) :
    LongestFitting input cursor (lineAt input cursor) ∧
      (match splitChain (lineAt input cursor) with
        | .error _ => env.items config input cursor = []
        | .ok chain => env.Matches config chain (env.items config input cursor)) ∧
      env.complete config input cursor out =
        ((env.items config input cursor).length, out ++
          (env.items config input cursor).map (CompletionItem.render config.callMarker)) := by
  refine ⟨longestFitting_lineAt input cursor, ?_, rfl⟩
  rw [items, completion]
  generalize lineAt input cursor = line
  split
  · next error herror => rw [completeLine, herror]
  · next chain hchain => exact env.matches_completeLine config hchain

end Environment
end ScriptConsole
