import ScriptConsole.Proofs.Completion.Matching

namespace ScriptConsole

namespace CompletionItem

/-- What is shown behind the label. -/
def mark (callMarker : String) (i : CompletionItem) : String :=
  if i.isInvocable then callMarker else ""

theorem render_eq (callMarker : String) (i : CompletionItem) :
    i.render callMarker = i.label ++ i.mark callMarker := by
  unfold render mark
  split
  · rfl
  · exact String.append_empty.symm

/-- The label of `j` goes on behind that of `i`, but what follows there does not come behind the
mark of `i`.  So `j` comes behind `i`, and its text does not. -/
def Overtakes (callMarker : String) (j i : CompletionItem) : Prop :=
  ∃ rest, rest ≠ "" ∧ j.label = i.label ++ rest ∧ ¬ i.mark callMarker < rest ++ j.mark callMarker

variable {callMarker : String} {i j : CompletionItem}

theorem Overtakes.label_lt (h : j.Overtakes callMarker i) : i.label < j.label := by
  obtain ⟨rest, hrest, hlabel, _⟩ := h
  rw [hlabel]
  exact lt_append i.label hrest

/-- The texts of two items are in the order of their labels unless one overtakes the other. -/
theorem render_lt_iff (h : i.label < j.label) :
    i.render callMarker < j.render callMarker ↔ ¬ j.Overtakes callMarker i := by
  rw [render_eq, render_eq]
  by_cases hfront : i.label.toList <+: j.label.toList
  · obtain ⟨cs, hcs⟩ := hfront
    have hlabel : j.label = i.label ++ String.ofList cs := by
      rw [← String.toList_inj, String.toList_append, String.toList_ofList, hcs]
    have hrest : String.ofList cs ≠ "" := by
      intro hempty
      rw [hlabel, hempty, String.append_empty] at h
      exact Std.lt_irrefl h
    rw [hlabel, String.append_assoc, String.lt_iff, String.toList_append, String.toList_append,
      append_lt_append_iff, ← String.lt_iff]
    constructor
    · intro hlt ⟨rest, _, hother, hmark⟩
      obtain rfl := (String.append_right_inj i.label).1 (hlabel.symm.trans hother)
      exact hmark hlt
    · intro hnone
      exact Decidable.byContradiction fun hmark => hnone ⟨_, hrest, hlabel, hmark⟩
  · have hnone : ¬ j.Overtakes callMarker i := by
      intro ⟨rest, _, hlabel, _⟩
      apply hfront
      rw [hlabel, String.toList_append]
      exact List.prefix_append _ _
    have hlt := append_lt_append_of_lt (String.lt_iff.1 h) hfront (i.mark callMarker).toList
      (j.mark callMarker).toList
    rw [String.lt_iff, String.toList_append, String.toList_append]
    exact iff_of_true hlt hnone

theorem Overtakes.isInvocable (h : j.Overtakes callMarker i) : i.isInvocable = true := by
  obtain ⟨rest, hrest, _, hmark⟩ := h
  refine Decidable.byContradiction fun hplain => hmark ?_
  rw [mark, if_neg hplain, ← String.empty_append (s := rest ++ j.mark callMarker)]
  apply lt_append
  simp [hrest]

end CompletionItem

theorem pairwise_iff_of_sorted {before : CompletionItem → CompletionItem → Prop}
    {items : List CompletionItem} (hsorted : items.Pairwise fun i j => i.label < j.label) :
    items.Pairwise before ↔ ∀ i ∈ items, ∀ j ∈ items, i.label < j.label → before i j := by
  induction items with
  | nil => simp
  | cons a items ih =>
    obtain ⟨hfirst, hrest⟩ := List.pairwise_cons.1 hsorted
    rw [List.pairwise_cons, ih hrest]
    constructor
    · intro ⟨ha, hitems⟩ i hi j hj hlt
      rw [List.mem_cons] at hi hj
      rcases hi with rfl | hi <;> rcases hj with rfl | hj
      · exact (Std.lt_irrefl hlt).elim
      · exact ha j hj
      · exact (Std.lt_irrefl (Std.lt_trans hlt (hfirst i hi))).elim
      · exact hitems i hi j hj hlt
    · intro h
      refine ⟨fun j hj => ?_, fun i hi j hj => ?_⟩
      · exact h a List.mem_cons_self j (List.mem_cons_of_mem a hj) (hfirst j hj)
      · exact h i (List.mem_cons_of_mem a hi) j (List.mem_cons_of_mem a hj)

theorem ascending_render_iff (callMarker : String) {items : List CompletionItem}
    (hsorted : items.Pairwise fun i j => i.label < j.label) :
    Ascending (items.map (CompletionItem.render callMarker)) ↔
      ∀ i ∈ items, ∀ j ∈ items, ¬ j.Overtakes callMarker i := by
  rw [Ascending, List.pairwise_map]
  simp only [utf8Bytes_lt_iff]
  rw [pairwise_iff_of_sorted hsorted]
  constructor
  · intro h i hi j hj hovertakes
    have hlt := hovertakes.label_lt
    exact (CompletionItem.render_lt_iff hlt).1 (h i hi j hj hlt) hovertakes
  · intro h i hi j hj hlt
    exact (CompletionItem.render_lt_iff hlt).2 (h i hi j hj)

/-- What the classes declare has identifiers for names. -/
def Registry.NamesIdentifiers (r : Registry) : Prop :=
  ∀ c ∈ r.classes, ∀ m ∈ c.ownMembers, isIdentifier m.name = true

theorem isIdentContinue_of_mem {s : String} (h : isIdentifier s = true) {c : Char}
    (hc : c ∈ s.toList) : isIdentContinue c = true := by
  obtain ⟨d, ds, hs, hd, hds⟩ := (isIdentifier_iff s).1 h
  rw [hs] at hc
  rcases List.mem_cons.1 hc with rfl | hc
  · exact isIdentContinue_of_isIdentStart hd
  · exact hds c hc

/-- Of the characters of identifiers `$` alone comes in front of a parenthesis. -/
theorem eq_dollar_of_le {c : Char} (h : isIdentContinue c = true) (hle : c ≤ '(') : c = '$' := by
  have hcode : c.toNat < 41 := by
    have : c.toNat ≤ '('.toNat := hle
    exact Nat.lt_succ_of_le this
  have hall : ∀ n < 41, isIdentContinue (Char.ofNat n) = true → Char.ofNat n = '$' := by decide
  have hc := hall c.toNat hcode
  rw [Char.ofNat_toNat] at hc
  exact hc h

/-- An item named by an identifier overtakes another when a `$` goes on where the parenthesis of the
other stands. -/
theorem CompletionItem.overtakes_iff_of_identifier {i j : CompletionItem}
    (hj : isIdentifier j.label = true) :
    j.Overtakes "(" i ↔ i.isInvocable = true ∧ ∃ rest, j.label = i.label ++ "$" ++ rest := by
  constructor
  · intro h
    refine ⟨h.isInvocable, ?_⟩
    have hinvocable := h.isInvocable
    obtain ⟨rest, hrest, hlabel, hmark⟩ := h
    obtain ⟨c, cs, hcs⟩ := List.exists_cons_of_ne_nil (mt String.toList_eq_nil_iff.1 hrest)
    have hc : isIdentContinue c = true := by
      refine isIdentContinue_of_mem hj ?_
      simp [hlabel, hcs]
    have hle : c ≤ '(' := by
      refine Std.not_lt.1 fun hlt => hmark ?_
      rw [mark, if_pos hinvocable, String.lt_iff, String.toList_append, hcs]
      exact List.cons_lt_cons_iff.2 (.inl hlt)
    obtain rfl := eq_dollar_of_le hc hle
    refine ⟨String.ofList cs, ?_⟩
    rw [hlabel, String.append_assoc, String.append_right_inj, ← String.toList_inj, hcs]
    simp
  · intro ⟨hinvocable, rest, hlabel⟩
    refine ⟨"$" ++ rest, by simp, by rw [hlabel, String.append_assoc], ?_⟩
    rw [mark, if_pos hinvocable, String.lt_iff]
    simp [List.cons_lt_cons_iff]

namespace Environment
variable (env : Environment) (config : CompletionConfig) (input : String) (cursor : Nat)

theorem items_sorted :
    (env.items config input cursor).Pairwise fun i j => i.label < j.label := by
  rw [items, completion, completeLine]
  split
  · exact List.Pairwise.nil
  · next chain _ => exact (sorted_candidates _ chain.stem).sublist (cap_sublist config _)

theorem exists_member_of_item {i : CompletionItem} (hi : i ∈ env.items config input cursor) :
    ∃ (r : Reference) (m : Member), m ∈ (r.members env.scope env.catalog).members ∧
      i = .ofMember m := by
  rw [items, completion, completeLine] at hi
  split at hi
  · cases hi
  · next chain _ =>
    obtain ⟨m, hm, _, rfl⟩ := (mem_candidates _ chain.stem i).1 ((cap_sublist config _).subset hi)
    exact ⟨_, m, hm, rfl⟩

end Environment

theorem Registry.NamesIdentifiers.of_typed {r : Registry} (h : r.NamesIdentifiers) (s : Scope)
    (current : Reference) (htyped : current.IsTyped) {name : String}
    (hname : name ∈ (current.members s r.catalog).names) : isIdentifier name = true := by
  obtain ⟨type, _, hmember⟩ := (members_typed current htyped s r.catalog name).1 hname
  obtain ⟨c, hc, hdeclares⟩ := (mem_membersOf r type name).1 hmember
  rw [declares_iff] at hdeclares
  obtain ⟨m, hm, rfl⟩ := hdeclares
  exact h c (hierarchy_subset r type hc) m hm

namespace Session
variable {r : Registry} {s : Session}

theorem Reachable.isIdentifier_of_member (hs : s.Reachable r) (hr : r.NamesIdentifiers)
    (current : Reference) (m : Member) (hm : m ∈ (current.members s.scope r.catalog).members)
    (htype : m.kind ≠ .type) (hpackage : m.kind ≠ .package) : isIdentifier m.name = true := by
  have hname : m.name ∈ (current.members s.scope r.catalog).names := List.mem_map_of_mem hm
  cases current with
  | topLevel =>
    cases listed_of_topLevel s.scope m hm with
    | binding name v hv => exact hs.isIdentifier_of_bound name v hv
    | type _ _ _ _ => exact (htype rfl).elim
    | keyword name hkeyword =>
      have hall : ∀ k ∈ ["importClass", "importPackage"], isIdentifier k = true := by decide
      exact hall name (hs.consistent.keywords ▸ hkeyword)
    | package _ _ _ _ => exact (hpackage rfl).elim
  | package path =>
    have hlisted : m ∈ r.children path := List.mem_of_find?_eq_some ((mem_ofList_iff _ m).1 hm)
    rcases of_mem_children r path m hlisted with ⟨hkind, _⟩ | ⟨hkind, _⟩
    · exact (hpackage hkind).elim
    · exact (htype hkind).elim
  | value v type => exact hr.of_typed s.scope (.value v type) trivial hname
  | static type => exact hr.of_typed s.scope (.static type) trivial hname
  | union types => exact hr.of_typed s.scope (.union types) trivial hname
  | unresolved => cases hm

theorem Reachable.isIdentifier_of_item (hs : s.Reachable r) (hr : r.NamesIdentifiers)
    (input : String) (cursor : Nat) (i : CompletionItem) (hi : i ∈ s.items input cursor)
    (htype : i.kind ≠ .type) (hpackage : i.kind ≠ .package) : isIdentifier i.label = true := by
  obtain ⟨current, m, hm, rfl⟩ := s.environment.exists_member_of_item s.config input cursor hi
  have hcatalog : s.environment.catalog = r.catalog := congrArg Registry.catalog hs.registry_eq
  rw [hcatalog] at hm
  exact hs.isIdentifier_of_member hr current m hm htype hpackage

/-- Completing appends texts in the order of the names, the markers left out.  The texts themselves
are in order exactly when no item overtakes another, and of the items named by identifiers those do
so whose names go on with `$` where another has the marker. -/
theorem complete_ascending_iff (r : Registry) (hr : r.NamesIdentifiers) (s : Session)
    (hs : s.Reachable r) (hmarker : s.config.callMarker = "(") (input : String) (cursor : Nat)
    (out : List String) :
    ∃ texts, s.complete input cursor out = (texts.length, out ++ texts) ∧
      Ascending ((s.items input cursor).map CompletionItem.label) ∧
      (Ascending texts ↔
        ∀ i ∈ s.items input cursor, ∀ j ∈ s.items input cursor, ¬ j.Overtakes "(" i) ∧
      ∀ i ∈ s.items input cursor, ∀ j ∈ s.items input cursor,
        j.kind ≠ .type → j.kind ≠ .package → (j.Overtakes "(" i ↔
          i.isInvocable = true ∧ ∃ rest, j.label = i.label ++ "$" ++ rest) := by
  have hsorted := s.environment.items_sorted s.config input cursor
  refine ⟨(s.items input cursor).map (CompletionItem.render "("), ?_, ?_, ?_, ?_⟩
  · rw [complete, Environment.complete, hmarker, List.length_map]
    rfl
  · exact List.pairwise_map.2 (hsorted.imp utf8Bytes_lt)
  · exact ascending_render_iff "(" hsorted
  · intro i _ j hj htype hpackage
    have hidentifier := hs.isIdentifier_of_item hr input cursor j hj htype hpackage
    exact CompletionItem.overtakes_iff_of_identifier hidentifier

/-- Two methods, the name of the second going on behind that of the first. -/
def slotRegistry : Registry :=
  .build [.type {
    name := "p.Slot"
    methods := [
      { name := "get", returnType := TypeName.string },
      { name := "get$", returnType := TypeName.string }] }]

def slotSession : Session := (new slotRegistry {}).perform (.bind "slot" (.object "p.Slot" []))

theorem slotSession_reachable : slotSession.Reachable slotRegistry := .perform _ _ (.new {})

theorem slotRegistry_names : slotRegistry.NamesIdentifiers := by
  unfold Registry.NamesIdentifiers
  decide +kernel

def importChain : AccessChain where
  start := 0
  head := .topLevel
  headSpan := ⟨0, 0⟩
  segments := []
  stem := "imp"

theorem slotSession_items_import : slotSession.items "imp" 3 =
    [⟨"importClass", .keyword, none⟩, ⟨"importPackage", .keyword, none⟩] := by
  have hsplit : splitChain (lineAt "imp" 3) = .ok importChain := by decide +kernel
  have hmembers : (slotSession.scope.topLevel.members.filter fun m =>
      importChain.stem.toList.isPrefixOf m.name.toList) =
        [⟨"importClass", .keyword, ""⟩, ⟨"importPackage", .keyword, ""⟩] := by
    decide +kernel
  rw [items, Environment.items, Environment.completion, Environment.completeLine, hsplit]
  change (candidates slotSession.scope.topLevel importChain.stem) = _
  rw [candidates, hmembers]
  exact List.mergeSort_of_pairwise (by decide)

theorem complete_ascending_iff_import :
    ∃ texts, slotSession.complete "imp" 3 [] = (texts.length, [] ++ texts) ∧ Ascending texts := by
  obtain ⟨texts, hcomplete, _, hascending, hdollar⟩ := complete_ascending_iff slotRegistry
    slotRegistry_names slotSession slotSession_reachable rfl "imp" 3 []
  refine ⟨texts, hcomplete, hascending.2 fun i hi j hj hovertakes => ?_⟩
  have hkeyword : j.kind = .keyword := by
    rw [slotSession_items_import] at hj
    rcases List.mem_pair.1 hj with rfl | rfl <;> rfl
  obtain ⟨_, rest, hrest⟩ := (hdollar i hi j hj (by simp [hkeyword]) (by simp [hkeyword])).1
    hovertakes
  have hlabel : '$' ∈ j.label.toList := by simp [hrest]
  rw [slotSession_items_import] at hj
  rcases List.mem_pair.1 hj with rfl | rfl <;> revert hlabel <;> decide

def slotChain : AccessChain where
  start := 0
  head := .name "slot"
  headSpan := ⟨0, 4⟩
  segments := []
  stem := ""

theorem slotSession_items : slotSession.items "slot." 5 =
    [⟨"get", .method, some "p.Slot"⟩, ⟨"get$", .method, some "p.Slot"⟩] := by
  have hsplit : splitChain (lineAt "slot." 5) = .ok slotChain := by decide +kernel
  have hmembers : ((slotSession.environment.resolve slotChain).reference.members
      slotSession.environment.scope slotSession.environment.catalog).members =
        [⟨"get", .method, "p.Slot"⟩, ⟨"get$", .method, "p.Slot"⟩] := by
    decide +kernel
  rw [items, Environment.items, Environment.completion, Environment.completeLine, hsplit]
  dsimp only
  rw [candidates, hmembers]
  exact List.mergeSort_of_pairwise (by decide)

/-- The name `get` comes in front of `get$`, but the texts are the other way round. -/
theorem complete_not_ascending :
    slotRegistry.NamesIdentifiers ∧ slotSession.Reachable slotRegistry ∧
      slotSession.config.callMarker = "(" ∧
      slotSession.complete "slot." 5 [] = (2, ["get(", "get$("]) ∧
      ¬ Ascending ["get(", "get$("] := by
  refine ⟨slotRegistry_names, slotSession_reachable, rfl, ?_, ?_⟩
  · change ((slotSession.items "slot." 5).length,
      [] ++ (slotSession.items "slot." 5).map (CompletionItem.render "(")) = _
    rw [slotSession_items]
    decide
  · intro h
    have hbytes : utf8Bytes "get(" < utf8Bytes "get$(" :=
      List.rel_of_pairwise_cons h List.mem_cons_self
    exact absurd ((utf8Bytes_lt_iff _ _).1 hbytes) (by decide)

end Session
end ScriptConsole
