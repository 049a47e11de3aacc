import Mathlib.Algebra.GroupWithZero.Nat
import ScriptConsole.Proofs.Value.Equality
import ScriptConsole.Registry.Standard

namespace ScriptConsole

/-- How often a byte comes in a text. -/
def byteCount (b : UInt8) (text : String) : Nat := (Standard.utf8 text).count b

theorem byteCount_append (b : UInt8) (s t : String) :
    byteCount b (s ++ t) = byteCount b s + byteCount b t := by
  simp [byteCount, Standard.utf8]

namespace Value

mutual

/-- Whether objects store fields of the same names in the same order, and so do the objects in
these. -/
def sameOrder : Value → Value → Bool
  | object _ fs, object _ gs => alignedFields fs gs
  | _, _ => true

def alignedFields : List (String × Value) → List (String × Value) → Bool
  | [], [] => true
  | (m, v) :: fs, (n, w) :: gs => m == n && sameOrder v w && alignedFields fs gs
  | _, _ => false

end

theorem eq_of_aligned {fs gs : Entries Value} (h : alignedFields fs gs = true)
    (hall : ∀ name v w, (name, v) ∈ fs → (name, w) ∈ gs → v.sameOrder w = true → v = w) :
    fs = gs := by
  induction fs generalizing gs with
  | nil =>
    cases gs with
    | nil => rfl
    | cons => simp [alignedFields] at h
  | cons f fs ih =>
    cases gs with
    | nil => simp [alignedFields] at h
    | cons g gs =>
      obtain ⟨m, v⟩ := f
      obtain ⟨n, w⟩ := g
      simp only [alignedFields, Bool.and_eq_true, beq_iff_eq] at h
      obtain ⟨⟨rfl, hvw⟩, hrest⟩ := h
      have hfirst : v = w := hall m v w List.mem_cons_self List.mem_cons_self hvw
      have htail : fs = gs := by
        apply ih hrest
        intro name x y hx hy
        exact hall name x y (List.mem_cons_of_mem _ hx) (List.mem_cons_of_mem _ hy)
      rw [hfirst, htail]

/-- Equal values whose fields come in the same order do not differ at all. -/
theorem eq_of_same {v w : Value} (hv : v.Built) (hw : w.Built) (h : v.same w = true)
    (horder : v.sameOrder w = true) : v = w := by
  induction hv using Built.induction generalizing w with
  | plain v _ hv => exact (same_plain hv w).1 h
  | stores c fs hfs ih =>
    obtain ⟨gs, rfl⟩ := object_of_same h
    obtain ⟨_, hrel⟩ := (same_object_iff hfs.nodup hw.nodup).1 h
    have hfields : fs = gs := by
      apply eq_of_aligned horder
      intro name v w hv hw' hvw
      have hf := (Entries.get?_eq_some_iff hfs.nodup name v).2 hv
      have hg := (Entries.get?_eq_some_iff hw.nodup name w).2 hw'
      have hname := hrel name
      rw [hf, hg] at hname
      exact ih name v hf (hw.stored hg) ((sameStored_some v w).1 hname) hvw
    rw [hfields]

section Bytes
variable (b : UInt8)

theorem byteCount_displayFields (fs : Entries Value) :
    byteCount b (displayFields fs) =
      fs.length * byteCount b ", " + (fs.map fun f => byteCount b (displayField f)).sum := by
  induction fs with
  | nil => simp [displayFields, byteCount, Standard.utf8]
  | cons f fs ih =>
    simp only [displayFields, byteCount_append, ih, List.length_cons, List.map_cons, List.sum_cons,
      Nat.succ_mul]
    omega

/-- The bytes of an object are those of its class, of its fields and of what stands between. -/
theorem byteCount_object (c : String) {fs gs : Entries Value} (hlength : fs.length = gs.length)
    (hfields : (fs.map fun f => byteCount b (displayField f)).sum =
      (gs.map fun g => byteCount b (displayField g)).sum) :
    byteCount b (display (object c fs)) = byteCount b (display (object c gs)) := by
  cases fs with
  | nil =>
    obtain rfl := List.length_eq_zero_iff.1 hlength.symm
    rfl
  | cons f fs =>
    cases gs with
    | nil => cases hlength
    | cons g gs =>
      simp only [List.length_cons, Nat.add_right_cancel_iff] at hlength
      simp only [List.map_cons, List.sum_cons] at hfields
      simp only [display, byteCount_append, byteCount_displayFields, hlength]
      omega

/-- How often a byte comes in what is displayed of the field of a name. -/
def storedBytes (fs : Entries Value) (name : String) : Nat :=
  ((Entries.get? name fs).map fun v => byteCount b (displayField (name, v))).getD 0

theorem sum_names {fs : Entries Value} (h : fs.names.Nodup) :
    (fs.map fun f => byteCount b (displayField f)).sum =
      (fs.names.map (storedBytes b fs)).sum := by
  rw [Entries.names, List.map_map]
  congr 1
  apply List.map_congr_left
  intro f hmem
  obtain ⟨name, v⟩ := f
  have hfound := (Entries.get?_eq_some_iff h name v).2 hmem
  simp [storedBytes, hfound]

/-- Equal values are displayed by the same bytes, in one order or another. -/
theorem byteCount_of_same {v w : Value} (hv : v.Built) (hw : w.Built) (h : v.same w = true) :
    byteCount b v.display = byteCount b w.display := by
  induction hv using Built.induction generalizing w with
  | plain v _ hv => rw [(same_plain hv w).1 h]
  | stores c fs hfs ih =>
    obtain ⟨gs, rfl⟩ := object_of_same h
    obtain ⟨_, hlength, _⟩ := (same_object c c fs gs).1 h
    obtain ⟨_, hrel⟩ := (same_object_iff hfs.nodup hw.nodup).1 h
    have hnames : (Entries.names fs).Perm (Entries.names gs) := by
      apply perm_names hfs.nodup hlength
      intro name v hv
      have hname := hrel name
      rw [hv] at hname
      exact hname.exists_some.imp fun _ hw => hw.1
    -- the fields of one name have the same bytes, so the sums over the names agree
    have hfield : ∀ name, storedBytes b fs name = storedBytes b gs name := by
      intro name
      have hname := hrel name
      cases hf : Entries.get? name fs with
      | none => simp [storedBytes, hf, (hname.none_iff).1 hf]
      | some v =>
        rw [hf] at hname
        obtain ⟨w, hg, hsame⟩ := hname.exists_some
        have hbytes := ih name v hf (hw.stored hg) hsame
        simp [storedBytes, hf, hg, displayField, byteCount_append, hbytes]
    apply byteCount_object b c hlength
    calc (fs.map fun f => byteCount b (displayField f)).sum
        = ((Entries.names fs).map (storedBytes b fs)).sum := sum_names b hfs.nodup
      _ = ((Entries.names gs).map (storedBytes b fs)).sum := (hnames.map _).sum_nat
      _ = ((Entries.names gs).map (storedBytes b gs)).sum := by rw [funext hfield]
      _ = (gs.map fun g => byteCount b (displayField g)).sum := (sum_names b hw.nodup).symm

end Bytes

/-- Equal values hash the same bytes, if not in the same order.  They have equal hash codes when
their fields come in the same order, at every depth. -/
theorem hashCode_of_equals (v w : Value) (hv : v.Built) (hw : w.Built)
    (h : Standard.equals v [w] = .ok (.boolean true)) :
    (Standard.utf8 v.display).Perm (Standard.utf8 w.display) ∧
      (v.sameOrder w = true → Standard.hashCode v [] = Standard.hashCode w []) := by
  have hsame : w.same v = true := by simpa [Standard.equals] using h
  constructor
  · rw [List.perm_iff_count]
    intro b
    exact (byteCount_of_same b hw hv hsame).symm
  · intro horder
    rw [eq_of_same hv hw (same_symm hw hv hsame) horder]

def turnedPoint : Value := object "p.Point" (Entries.set "x" (integer 1) [("y", integer 2)])

theorem turnedPoint_built : turnedPoint.Built :=
  .set _ _ "x" (integer 1) (.set _ _ "y" (integer 2) (.new "p.Point") (.integer 2)) (.integer 1)

def movedPoint : Value :=
  object "p.Point" (Entries.set "x" (integer 1) [("x", integer 7), ("y", integer 2)])

/-- The point is displayed by the bytes of the point turned round, and has the hash code of the point
with a field set twice. -/
theorem hashCode_of_equals_point :
    Standard.equals point [turnedPoint] = .ok (.boolean true) ∧
      (Standard.utf8 point.display).Perm (Standard.utf8 turnedPoint.display) ∧
      Standard.hashCode point [] = Standard.hashCode movedPoint [] := by
  have hturned : Standard.equals point [turnedPoint] = .ok (.boolean true) := by rfl
  have hmoved : Standard.equals point [movedPoint] = .ok (.boolean true) := by rfl
  have hbuilt : movedPoint.Built := point_built
  exact ⟨hturned, (hashCode_of_equals _ _ point_built turnedPoint_built hturned).1,
    (hashCode_of_equals _ _ point_built hbuilt hmoved).2 (by decide)⟩

/-- The point turned round equals the point, and has another hash code. -/
theorem hashCode_differs :
    point.Built ∧ turnedPoint.Built ∧
      Standard.equals point [turnedPoint] = .ok (.boolean true) ∧
      Standard.hashCode point [] ≠ Standard.hashCode turnedPoint [] := by
  have hdiffer : Standard.hash point ≠ Standard.hash turnedPoint := by decide +kernel
  refine ⟨point_built, turnedPoint_built, rfl, ?_⟩
  intro h
  simp only [Standard.hashCode, Except.ok.injEq, integer.injEq] at h
  exact hdiffer h

end Value
end ScriptConsole
