import Mathlib.Data.List.Perm.Subperm
import ScriptConsole.Value.Basic

namespace ScriptConsole

theorem Entries.get?_eq_some_iff {α : Type} {entries : Entries α} (h : entries.names.Nodup)
    (name : String) (value : α) :
    Entries.get? name entries = some value ↔ (name, value) ∈ entries := by
  refine ⟨Entries.mem_of_get?, ?_⟩
  intro hmem
  induction entries with
  | nil => simp at hmem
  | cons entry rest ih =>
    obtain ⟨hfirst, hrest⟩ := List.nodup_cons.1 h
    rw [Entries.get?]
    rcases List.mem_cons.1 hmem with rfl | hmem
    · simp
    · have hname : name ∈ rest.map Prod.fst := List.mem_map_of_mem hmem
      have hne : entry.1 ≠ name := fun h => hfirst (h ▸ hname)
      rw [if_neg hne]
      exact ih hrest hmem

theorem Entries.get?_set_comm {α : Type} (entries : Entries α) {m n : String} (h : m ≠ n)
    (v w : α) (name : String) :
    Entries.get? name (Entries.set n w (Entries.set m v entries)) =
      Entries.get? name (Entries.set m v (Entries.set n w entries)) := by
  simp only [Entries.get?_set]
  by_cases hm : m = name
  · have hn : n ≠ name := fun hn => h (hm.trans hn.symm)
    simp [hm, hn]
  · simp [hm]

namespace Value

/-- The values that come up: an object begins without fields, and has them set one by one. -/
inductive Built : Value → Prop where
  | null : Built null
  | void : Built void
  | boolean (b : Bool) : Built (boolean b)
  | integer (n : Int64) : Built (integer n)
  | string (text : String) : Built (string text)
  | new (className : String) : Built (object className [])
  | set (className : String) (fields : Entries Value) (name : String) (v : Value)
      (h : Built (object className fields)) (hv : Built v) :
      Built (object className (Entries.set name v fields))

/-- No name comes twice in an object, and what it stores has been built like itself. -/
theorem Built.fields {c : String} {fs : Entries Value} (h : Built (object c fs)) :
    fs.names.Nodup ∧ ∀ name v, Entries.get? name fs = some v → Built v := by
  generalize hobject : object c fs = u at h
  induction h generalizing fs with
  | new =>
    cases hobject
    exact ⟨List.nodup_nil, by simp [Entries.get?]⟩
  | set _ fields name v _ hv ih _ =>
    cases hobject
    obtain ⟨hnodup, hstored⟩ := ih rfl
    refine ⟨Entries.nodup_names_set hnodup name v, ?_⟩
    intro other w hw
    rw [Entries.get?_set] at hw
    split at hw
    · cases hw; exact hv
    · exact hstored other w hw
  | _ => cases hobject

theorem Built.nodup {c : String} {fs : Entries Value} (h : Built (object c fs)) :
    fs.names.Nodup := h.fields.1

theorem Built.stored {c : String} {fs : Entries Value} (h : Built (object c fs)) {name : String}
    {v : Value} (hv : Entries.get? name fs = some v) : v.Built := h.fields.2 name v hv

/-- What holds of all that is no object, and of an object when it holds of all that this stores,
holds of all values. -/
@[elab_as_elim]
theorem Built.induction {motive : (v : Value) → v.Built → Prop}
    (plain : ∀ v h, v.fields? = none → motive v h)
    (stores : ∀ c fs (h : Built (object c fs)),
      (∀ name v (hv : Entries.get? name fs = some v), motive v (h.stored hv)) →
      motive (object c fs) h)
    {v : Value} (h : Built v) : motive v h := by
  -- for more fields to be set, what an object stores already has to be known as well
  suffices hall : motive v h ∧ ∀ c fs, v = object c fs →
      ∀ name w, Entries.get? name fs = some w → ∃ hw : Built w, motive w hw from hall.1
  induction h with
  | new className =>
    refine ⟨stores className [] (.new className) (by simp [Entries.get?]), ?_⟩
    rintro _ _ ⟨⟩ name w hw
    simp [Entries.get?] at hw
  | set className fields name v h hv ih ihv =>
    have hstored : ∀ other w, Entries.get? other (Entries.set name v fields) = some w →
        ∃ hw : Built w, motive w hw := by
      intro other w hw
      rw [Entries.get?_set] at hw
      split at hw
      · cases hw; exact ⟨hv, ihv.1⟩
      · exact ih.2 className fields rfl other w hw
    refine ⟨stores className _ _ fun other w hw => (hstored other w hw).2, ?_⟩
    rintro _ _ ⟨⟩
    exact hstored
  | _ => exact ⟨plain _ _ rfl, by simp⟩

/-- Nothing is stored in two places, or equal values are. -/
def SameStored : Option Value → Option Value → Prop := Option.Rel fun v w => v.same w = true

@[simp] theorem sameStored_some (v w : Value) :
    SameStored (some v) (some w) ↔ v.same w = true := Option.rel_some_some

theorem SameStored.none_iff {x y : Option Value} (h : SameStored x y) : x = none ↔ y = none := by
  cases h <;> simp

theorem SameStored.exists_some {v : Value} {y : Option Value} (h : SameStored (some v) y) :
    ∃ w, y = some w ∧ v.same w = true := by
  cases h with
  | some h => exact ⟨_, rfl, h⟩

theorem SameStored.symm {x y : Option Value} (h : SameStored x y)
    (hall : ∀ v ∈ x, ∀ w ∈ y, v.same w = true → w.same v = true) : SameStored y x := by
  cases h with
  | none => exact .none
  | some h => exact .some (hall _ rfl _ rfl h)

theorem SameStored.trans {x y z : Option Value} (h : SameStored x y) (h' : SameStored y z)
    (hall : ∀ u ∈ x, ∀ v ∈ y, ∀ w ∈ z, u.same v = true → v.same w = true → u.same w = true) :
    SameStored x z := by
  cases h with
  | none => exact h'
  | some h =>
    cases h' with
    | some h' => exact .some (hall _ rfl _ rfl _ rfl h h')

theorem storedIn_iff {fs : Entries Value} (gs : Entries Value) (hfs : fs.names.Nodup) :
    storedIn fs gs = true ↔ ∀ name v, Entries.get? name fs = some v →
      ∃ w, Entries.get? name gs = some w ∧ v.same w = true := by
  have hentries : storedIn fs gs = true ↔ ∀ field ∈ fs,
      ∃ w, Entries.get? field.1 gs = some w ∧ field.2.same w = true := by
    clear hfs
    induction fs with
    | nil => simp [storedIn]
    | cons field fs ih =>
      rw [storedIn, Bool.and_eq_true, ih, List.forall_mem_cons]
      cases Entries.get? field.1 gs <;> simp
  simp only [hentries, Entries.get?_eq_some_iff hfs, Prod.forall]

theorem same_object (c d : String) (fs gs : Entries Value) :
    (object c fs).same (object d gs) = true ↔
      c = d ∧ fs.length = gs.length ∧ storedIn fs gs = true := by
  simp [same, and_assoc]

/-- All names of `fs` are names of `gs`.  When there are no more of these, they are the same. -/
theorem perm_names {fs gs : Entries Value} (hfs : fs.names.Nodup)
    (hlength : fs.length = gs.length)
    (hstored : ∀ name v, Entries.get? name fs = some v → ∃ w, Entries.get? name gs = some w) :
    fs.names.Perm gs.names := by
  have hsubset : fs.names ⊆ gs.names := by
    intro name hname
    have hne := (not_congr (Entries.get?_eq_none_iff fs name)).2 (not_not.2 hname)
    obtain ⟨v, hv⟩ := Option.ne_none_iff_exists'.1 hne
    obtain ⟨w, hw⟩ := hstored name v hv
    exact List.mem_map_of_mem (Entries.mem_of_get? hw)
  apply (hfs.subperm hsubset).perm_of_length_le
  simp [Entries.names, hlength]

section Objects
variable {c d : String} {fs gs : Entries Value} (hfs : fs.names.Nodup) (hgs : gs.names.Nodup)
include hfs hgs

theorem length_eq_of_names (h : ∀ name, name ∈ fs.names ↔ name ∈ gs.names) :
    fs.length = gs.length := by
  have hperm := (List.perm_ext_iff_of_nodup hfs hgs).2 h
  simpa [Entries.names] using hperm.length_eq

/-- Objects are equal when they have one class and store equal values under the same names. -/
theorem same_object_iff : (object c fs).same (object d gs) = true ↔
    c = d ∧ ∀ name, SameStored (Entries.get? name fs) (Entries.get? name gs) := by
  rw [same_object, storedIn_iff gs hfs]
  refine and_congr_right fun _ => ?_
  constructor
  · intro ⟨hlength, hstored⟩ name
    have hperm := perm_names hfs hlength fun name v hv =>
      (hstored name v hv).imp fun _ hw => hw.1
    cases hf : Entries.get? name fs with
    | none =>
      have hnot : name ∉ gs.names := by
        rw [← hperm.mem_iff]
        exact (Entries.get?_eq_none_iff fs name).1 hf
      rw [(Entries.get?_eq_none_iff gs name).2 hnot]
      exact .none
    | some v =>
      obtain ⟨w, hw, hsame⟩ := hstored name v hf
      rw [hw]
      exact .some hsame
  · intro hrel
    constructor
    · apply length_eq_of_names hfs hgs
      intro name
      rw [← not_iff_not, ← Entries.get?_eq_none_iff, ← Entries.get?_eq_none_iff]
      exact (hrel name).none_iff
    · intro name v hv
      have hname := hrel name
      rw [hv] at hname
      exact hname.exists_some

end Objects

theorem object_of_same {c : String} {fs : Entries Value} {w : Value}
    (h : (object c fs).same w = true) : ∃ gs, w = object c gs := by
  cases w with
  | object d gs => exact ⟨gs, by rw [((same_object c d fs gs).1 h).1]⟩
  | _ => simp [same] at h

theorem same_plain {v : Value} (h : v.fields? = none) (w : Value) : v.same w = true ↔ v = w := by
  cases v with
  | object => cases h
  | _ => cases w <;> simp [same]

theorem same_refl {v : Value} (h : v.Built) : v.same v = true := by
  induction h using Built.induction with
  | plain v _ hv => exact (same_plain hv v).2 rfl
  | stores c fs h ih =>
    refine (same_object_iff h.nodup h.nodup).2 ⟨rfl, fun name => ?_⟩
    cases hv : Entries.get? name fs with
    | none => exact .none
    | some v => exact .some (ih name v hv)

theorem same_symm {v w : Value} (hv : v.Built) (hw : w.Built) (h : v.same w = true) :
    w.same v = true := by
  induction hv using Built.induction generalizing w with
  | plain v _ hv =>
    obtain rfl := (same_plain hv w).1 h
    exact h
  | stores c fs hfs ih =>
    obtain ⟨gs, rfl⟩ := object_of_same h
    obtain ⟨_, hrel⟩ := (same_object_iff hfs.nodup hw.nodup).1 h
    refine (same_object_iff hw.nodup hfs.nodup).2 ⟨rfl, fun name => ?_⟩
    exact (hrel name).symm fun v hv w hg hsame => ih name v hv (hw.stored hg) hsame

theorem same_trans {u v w : Value} (hu : u.Built) (hv : v.Built) (hw : w.Built)
    (h : u.same v = true) (h' : v.same w = true) : u.same w = true := by
  induction hu using Built.induction generalizing v w with
  | plain u _ hu =>
    obtain rfl := (same_plain hu v).1 h
    exact h'
  | stores c fs hfs ih =>
    obtain ⟨gs, rfl⟩ := object_of_same h
    obtain ⟨hs, rfl⟩ := object_of_same h'
    obtain ⟨_, hrel⟩ := (same_object_iff hfs.nodup hv.nodup).1 h
    obtain ⟨_, hrel'⟩ := (same_object_iff hv.nodup hw.nodup).1 h'
    refine (same_object_iff hfs.nodup hw.nodup).2 ⟨rfl, fun name => ?_⟩
    exact (hrel name).trans (hrel' name) fun u hf v hg w hh hsame hsame' =>
      ih name u hf (hv.stored hg) (hw.stored hh) hsame hsame'

/-- Equality of values is an equivalence.  Two fields can be set in either order, and of two values
set for one field the last one counts.  Objects are equal exactly when they have one class and, for
every name, both store nothing or both store equal values. -/
theorem equality_laws :
    Equivalence (fun v w : { v : Value // v.Built } => v.val.same w.val = true) ∧
    (∀ c fields v w, (object c fields).Built → v.Built → w.Built → ∀ m n,
      (m ≠ n → (object c (Entries.set n w (Entries.set m v fields))).same
        (object c (Entries.set m v (Entries.set n w fields))) = true) ∧
      (object c (Entries.set n w (Entries.set n v fields))).same
        (object c (Entries.set n w fields)) = true) ∧
    ∀ c d fs gs, (object c fs).Built → (object d gs).Built →
      ((object c fs).same (object d gs) = true ↔
        c = d ∧ ∀ name, SameStored (Entries.get? name fs) (Entries.get? name gs)) := by
  refine ⟨⟨?_, ?_, ?_⟩, ?_, ?_⟩
  · intro ⟨_, hv⟩
    exact same_refl hv
  · intro ⟨_, hv⟩ ⟨_, hw⟩ h
    exact same_symm hv hw h
  · intro ⟨_, hu⟩ ⟨_, hv⟩ ⟨_, hw⟩ h h'
    exact same_trans hu hv hw h h'
  · intro c fields v w h hv hw m n
    have hmn : (object c (Entries.set n w (Entries.set m v fields))).Built :=
      .set c _ n w (.set c fields m v h hv) hw
    have hnm : (object c (Entries.set m v (Entries.set n w fields))).Built :=
      .set c _ m v (.set c fields n w h hw) hv
    constructor
    · intro hne
      refine (same_object_iff hmn.nodup hnm.nodup).2 ⟨rfl, fun name => ?_⟩
      have hself := ((same_object_iff hmn.nodup hmn.nodup).1 (same_refl hmn)).2 name
      rw [← Entries.get?_set_comm fields hne v w name]
      exact hself
    · rw [Entries.set_set]
      exact same_refl (.set c fields n w h hw)
  · intro c d fs gs hf hg
    exact same_object_iff hf.nodup hg.nodup

/-- A point, its first coordinate set first. -/
def point : Value := object "p.Point" [("x", integer 1), ("y", integer 2)]

theorem point_built : point.Built :=
  .set _ _ "y" (integer 2) (.set _ _ "x" (integer 1) (.new "p.Point") (.integer 1)) (.integer 2)

/-- A line whose ends have been set in either order. -/
theorem equality_laws_line :
    (object "p.Line" []).Built ∧ point.Built ∧ (object "p.Point" []).Built ∧ "from" ≠ "to" ∧
      (object "p.Line" (Entries.set "to" point
        (Entries.set "from" (object "p.Point" []) []))).same
        (object "p.Line" (Entries.set "from" (object "p.Point" [])
          (Entries.set "to" point []))) = true := by
  have hline : (object "p.Line" []).Built := .new "p.Line"
  have horigin : (object "p.Point" []).Built := .new "p.Point"
  have hends := equality_laws.2.1 "p.Line" [] (object "p.Point" []) point hline horigin point_built
  exact ⟨hline, point_built, horigin, by decide, (hends "from" "to").1 (by decide)⟩

end Value
end ScriptConsole
