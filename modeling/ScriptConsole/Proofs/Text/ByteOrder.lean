import Mathlib.Tactic.SplitIfs
import ScriptConsole.Text.Extent

namespace ScriptConsole

/-- The bytes of a text in UTF-8. -/
def utf8Bytes (s : String) : List UInt8 := s.toUTF8.data.toList

theorem utf8Bytes_eq (s : String) : utf8Bytes s = s.toList.flatMap String.utf8EncodeChar := by
  rw [utf8Bytes, String.toUTF8, ← String.utf8Encode_toList, List.utf8Encode,
    List.toList_data_toByteArray]

theorem charVal_lt (c : Char) : c.val.toNat < 0x110000 := by
  have hvalid := c.valid
  simp only [UInt32.isValidChar, Nat.isValidChar] at hvalid
  omega

/-- A lesser character has lesser bytes, whatever follows. -/
theorem utf8EncodeChar_lt {c d : Char} (h : c < d) (xs ys : List UInt8) :
    String.utf8EncodeChar c ++ xs < String.utf8EncodeChar d ++ ys := by
  have hlt : c.val.toNat < d.val.toNat := UInt32.lt_iff_toNat_lt.1 h
  have hbound := charVal_lt d
  unfold String.utf8EncodeChar
  generalize c.val.toNat = m at hlt
  generalize d.val.toNat = n at hlt hbound
  -- the bytes behind the first hold the digits to the base 64
  have hdigits (k : Nat) : k / 4096 = k / 64 / 64 ∧ k / 262144 = k / 64 / 64 / 64 := by omega
  simp only [hdigits]
  split_ifs <;>
    simp only [List.cons_append, List.nil_append, List.cons_lt_cons_iff, UInt8.lt_iff_toNat_lt,
      ← UInt8.toNat_inj, UInt8.toNat_ofNat', Nat.reducePow] <;>
    omega

theorem flatMap_utf8EncodeChar_lt {cs ds : List Char} (h : cs < ds) :
    cs.flatMap String.utf8EncodeChar < ds.flatMap String.utf8EncodeChar := by
  induction cs generalizing ds with
  | nil =>
    cases ds with
    | nil => exact (List.lt_irrefl [] h).elim
    | cons d ds =>
      obtain ⟨b, bs, hbytes⟩ := List.exists_cons_of_ne_nil (@String.utf8EncodeChar_ne_nil d)
      rw [List.flatMap_cons, hbytes]
      exact List.nil_lt_cons b _
  | cons c cs ih =>
    cases ds with
    | nil => exact (List.not_lt_nil _ h).elim
    | cons d ds =>
      rw [List.flatMap_cons, List.flatMap_cons]
      rcases List.cons_lt_cons_iff.1 h with hcd | ⟨rfl, hrest⟩
      · exact utf8EncodeChar_lt hcd _ _
      · exact List.append_left_lt (ih hrest)

/-- The order of texts by characters is the order by bytes. -/
theorem utf8Bytes_lt {s t : String} (h : s < t) : utf8Bytes s < utf8Bytes t := by
  rw [utf8Bytes_eq, utf8Bytes_eq]
  exact flatMap_utf8EncodeChar_lt h

theorem utf8Bytes_lt_iff (s t : String) : utf8Bytes s < utf8Bytes t ↔ s < t := by
  refine ⟨fun h => Std.not_le.1 fun hle => ?_, utf8Bytes_lt⟩
  rcases Std.le_iff_lt_or_eq.1 hle with hlt | rfl
  · exact List.lt_asymm h (utf8Bytes_lt hlt)
  · exact List.lt_irrefl _ h

theorem append_lt_append_iff (cs xs ys : List Char) : cs ++ xs < cs ++ ys ↔ xs < ys := by
  induction cs with
  | nil => rfl
  | cons c cs ih => rw [List.cons_append, List.cons_append, List.cons_lt_cons_self, ih]

theorem lt_append (s : String) {t : String} (h : t ≠ "") : s < s ++ t := by
  obtain ⟨c, cs, ht⟩ := List.exists_cons_of_ne_nil (mt String.toList_eq_nil_iff.1 h)
  have hlt := (append_lt_append_iff s.toList [] (c :: cs)).2 (List.nil_lt_cons c cs)
  rwa [List.append_nil, ← ht, ← String.toList_append, ← String.lt_iff] at hlt

/-- Texts that differ at some place keep their order, whatever follows them. -/
theorem append_lt_append_of_lt {cs ds : List Char} (h : cs < ds) (hfront : ¬ cs <+: ds)
    (xs ys : List Char) : cs ++ xs < ds ++ ys := by
  induction cs generalizing ds with
  | nil => exact (hfront List.nil_prefix).elim
  | cons c cs ih =>
    cases ds with
    | nil => exact (List.not_lt_nil _ h).elim
    | cons d ds =>
      rw [List.cons_append, List.cons_append, List.cons_lt_cons_iff]
      rcases List.cons_lt_cons_iff.1 h with hcd | ⟨rfl, hrest⟩
      · exact .inl hcd
      · have hdiffer : ¬ cs <+: ds := fun hpart => hfront (List.cons_prefix_cons.2 ⟨rfl, hpart⟩)
        exact .inr ⟨rfl, ih hrest hdiffer⟩

end ScriptConsole
