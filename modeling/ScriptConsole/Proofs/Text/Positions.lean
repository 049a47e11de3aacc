import ScriptConsole.Proofs.Evaluation.Dispatch
import ScriptConsole.Proofs.Text.Occurrence
import ScriptConsole.Registry.Standard

namespace ScriptConsole

/-- No text in memory takes `2 ^ 63` bytes. -/
def Storable (text : String) : Prop := text.utf8ByteSize < 2 ^ 63

theorem length_le_byteSize (cs : List Char) : cs.length ≤ byteSize cs := by
  induction cs with
  | nil => exact Nat.le_refl 0
  | cons c cs ih =>
    have hpos := Char.utf8Size_pos c
    simp only [List.length_cons, byteSize]
    omega

theorem Storable.length_lt {text : String} (h : Storable text) : text.toList.length < 2 ^ 63 := by
  have hle := length_le_byteSize text.toList
  rw [byteSize_toList] at hle
  exact Nat.lt_of_le_of_lt hle h

theorem exists_ofNat {b : Int64} (h : 0 ≤ b) : ∃ k : Nat, k < 2 ^ 63 ∧ b = Int64.ofNat k := by
  have hnonneg : 0 ≤ b.toInt := Int64.le_iff_toInt_le.1 h
  have hlt := Int64.toInt_lt b
  have hk : b.toInt.toNat < 2 ^ 63 := by omega
  refine ⟨b.toInt.toNat, hk, Int64.toInt_inj.1 ?_⟩
  rw [Int64.toInt_ofNat_of_lt hk, Int.toNat_of_nonneg hnonneg]

theorem toInt_add_ofNat {a b : Nat} (h : a + b < 2 ^ 63) :
    (Int64.ofNat a + Int64.ofNat b).toInt = a + b := by
  rw [← Int64.ofNat_add, Int64.toInt_ofNat_of_lt h]
  rfl

theorem ofNat_le_ofNat {a b : Nat} (ha : a < 2 ^ 63) (hb : b < 2 ^ 63) :
    Int64.ofNat a ≤ Int64.ofNat b ↔ a ≤ b := by
  rw [Int64.le_iff_toInt_le, Int64.toInt_ofNat_of_lt ha, Int64.toInt_ofNat_of_lt hb]
  exact Int.ofNat_le

theorem zero_le_ofNat {a : Nat} (ha : a < 2 ^ 63) : 0 ≤ Int64.ofNat a :=
  (ofNat_le_ofNat (by decide) ha).2 (Nat.zero_le a)

/-- A number that fits is the same without a sign. -/
theorem toNat_toUInt64_ofNat {a : Nat} (ha : a < 2 ^ 63) : (Int64.ofNat a).toUInt64.toNat = a := by
  rw [Int64.toUInt64_ofNat', UInt64.toNat_ofNat', Nat.mod_eq_of_lt (by omega)]

/-- The characters of `s` from `a` on, as many as `count`. -/
def textAt (s : String) (a count : Nat) : String := String.ofList ((s.toList.drop a).take count)

theorem textAt_eq_iff {s t : String} {a : Nat} :
    textAt s a t.toList.length = t ↔ t.toList <+: s.toList.drop a := by
  rw [List.prefix_iff_eq_take, textAt]
  constructor
  · intro h
    nth_rewrite 1 [← h]
    exact String.toList_ofList
  · intro h
    rw [← h, String.ofList_toList]

theorem slice_ok {text : String} (htext : Storable text) {a b : Nat} (hab : a ≤ b)
    (hb : b ≤ text.toList.length) :
    Standard.slice text (.ofNat a) (.ofNat b) = .ok (.string (textAt text a (b - a))) := by
  have hlength := htext.length_lt
  have hin : ¬ (Int64.ofNat a < 0 ∨ Int64.ofNat text.toList.length < Int64.ofNat b ∨
      Int64.ofNat b < Int64.ofNat a) := by
    rw [not_or, not_or, Int64.not_lt, Int64.not_lt, Int64.not_lt]
    exact ⟨zero_le_ofNat (by omega), (ofNat_le_ofNat (by omega) hlength).2 hb,
      (ofNat_le_ofNat (by omega) (by omega)).2 hab⟩
  have hcount : (Int64.ofNat b - Int64.ofNat a).toUInt64.toNat = b - a := by
    rw [← Int64.ofNat_sub b a hab, toNat_toUInt64_ofNat (by omega)]
  rw [Standard.slice, if_neg hin]
  dsimp only
  rw [toNat_toUInt64_ofNat (by omega), hcount]
  rfl

theorem slice_error (text : String) {a b : Int64}
    (h : ¬ (0 ≤ a ∧ a ≤ b ∧ b ≤ Int64.ofNat text.toList.length)) :
    ∃ reason, Standard.slice text a b = .error (.thrown reason) := by
  have hout : a < 0 ∨ Int64.ofNat text.toList.length < b ∨ b < a := by
    simp only [← Int64.not_le]
    tauto
  rw [Standard.slice, if_pos hout]
  exact ⟨_, rfl⟩

/-- What a method of a text yields. -/
def Registry.textCall (r : Registry) (text member : String) (args : List Value) :
    Except EvalError Value :=
  r.callMember (.value (.string text)) member args

section Calls
variable {r : Registry} (hr : r.class? TypeName.string = some Standard.string) (s t : String)
include hr

theorem textCall_length :
    r.textCall s "length" [] = .ok (.integer (Int64.ofNat s.toList.length)) :=
  callMember_own r "length" [] rfl hr rfl

theorem textCall_indexOf :
    r.textCall s "indexOf" [.string t] = .ok (.integer (Standard.position s t)) :=
  callMember_own r "indexOf" [.string t] rfl hr rfl

theorem textCall_startsWith :
    r.textCall s "startsWith" [.string t] = .ok (.boolean (t.toList.isPrefixOf s.toList)) :=
  callMember_own r "startsWith" [.string t] rfl hr rfl

theorem textCall_between (b e : Int64) :
    r.textCall s "substring" [.integer b, .integer e] = Standard.slice s b e :=
  callMember_own r "substring" [.integer b, .integer e] rfl hr rfl

theorem textCall_from (b : Int64) :
    r.textCall s "substring" [.integer b] =
      Standard.slice s b (Int64.ofNat s.toList.length) :=
  callMember_own r "substring" [.integer b] rfl hr rfl

theorem textCall_concat : r.textCall s "concat" [.string t] = .ok (.string (s ++ t)) :=
  callMember_own r "concat" [.string t] rfl hr rfl

end Calls

section Parts
variable {r : Registry} (hr : r.class? TypeName.string = some Standard.string) {s : String}
  (hs : Storable s)
include hr hs

theorem textCall_between_ofNat {a count : Nat} (h : a + count ≤ s.toList.length) :
    r.textCall s "substring" [.integer (Int64.ofNat a), .integer (Int64.ofNat a + Int64.ofNat count)] =
      .ok (.string (textAt s a count)) := by
  rw [textCall_between hr, ← Int64.ofNat_add, slice_ok hs (Nat.le_add_right a count) h,
    Nat.add_sub_cancel_left]

theorem textCall_between_cases (b e : Int64) :
    if 0 ≤ b ∧ b ≤ e ∧ e ≤ Int64.ofNat s.toList.length then
      (e - b).toInt = e.toInt - b.toInt ∧
        ∃ w, r.textCall s "substring" [.integer b, .integer e] = .ok (.string w)
    else
      ∃ reason, r.textCall s "substring" [.integer b, .integer e] = .error (.thrown reason) := by
  have hlt := hs.length_lt
  rw [textCall_between hr]
  split
  · next h =>
    obtain ⟨hb, hbe, he⟩ := h
    obtain ⟨a, ha, rfl⟩ := exists_ofNat hb
    obtain ⟨c, hc, rfl⟩ := exists_ofNat (Int64.le_trans hb hbe)
    have hac := (ofNat_le_ofNat ha hc).1 hbe
    have hcn := (ofNat_le_ofNat hc hlt).1 he
    exact ⟨Int64.toInt_sub_of_le _ _ hb hbe, textAt s a (c - a), slice_ok hs hac hcn⟩
  · next h => exact slice_error s h

theorem textCall_rejoined {b : Int64} (hb : 0 ≤ b) (hbn : b ≤ Int64.ofNat s.toList.length) :
    ∃ front back : String,
      r.textCall s "substring" [.integer 0, .integer b] = .ok (.string front) ∧
      r.textCall s "substring" [.integer b] = .ok (.string back) ∧
      r.textCall front "concat" [.string back] = .ok (.string s) := by
  obtain ⟨a, ha, rfl⟩ := exists_ofNat hb
  have han := (ofNat_le_ofNat ha hs.length_lt).1 hbn
  refine ⟨textAt s 0 a, textAt s a (s.toList.length - a), ?_, ?_, ?_⟩
  · rw [textCall_between hr]
    exact slice_ok hs (Nat.zero_le a) han
  · rw [textCall_from hr]
    exact slice_ok hs han (Nat.le_refl _)
  · rw [textCall_concat hr, textAt, textAt, ← String.ofList_append, List.drop_zero,
      List.take_of_length_le (Nat.le_of_eq List.length_drop), List.take_append_drop,
      String.ofList_toList]

end Parts

section Occurrence
variable {s t : String} (hs : Storable s)
include hs

theorem position_of_some {k : Nat} (h : indexOf? t.toList s.toList = some k) :
    Standard.position s t = Int64.ofNat k ∧ k + t.toList.length ≤ s.toList.length ∧
      (Standard.position s t).toInt = k := by
  obtain ⟨hk, hprefix⟩ := indexOf?_eq_some h
  have hle := hprefix.length_le
  rw [List.length_drop] at hle
  have hlt := hs.length_lt
  have hposition : Standard.position s t = Int64.ofNat k := by
    rw [Standard.position, h]
  refine ⟨hposition, by omega, ?_⟩
  rw [hposition, Int64.toInt_ofNat_of_lt (by omega)]

theorem position_eq_neg_one_iff :
    Standard.position s t = -1 ↔ ¬ t.toList <:+: s.toList := by
  rw [← indexOf?_eq_none_iff]
  cases h : indexOf? t.toList s.toList with
  | none =>
    rw [Standard.position, h]
    exact iff_of_true rfl rfl
  | some k =>
    refine iff_of_false ?_ nofun
    intro hneg
    have hk := (position_of_some hs h).2.2
    have hbelow : (-1 : Int64).toInt = -1 := rfl
    rw [hneg, hbelow] at hk
    omega

theorem position_eq_zero_iff : Standard.position s t = 0 ↔ t.toList <+: s.toList := by
  rw [← indexOf?_eq_zero_iff]
  cases h : indexOf? t.toList s.toList with
  | none =>
    rw [Standard.position, h]
    exact iff_of_false (by decide) nofun
  | some k =>
    have hk := (position_of_some hs h).2.2
    rw [← Int64.toInt_inj, hk, Option.some_inj]
    exact Int.natCast_eq_zero

/-- The place is that of the bytes, the characters in front of them being counted. -/
theorem position_searched :
    Standard.position s t = -1 ∧ (∀ k, ¬ FirstAt (utf8Bytes t) (utf8Bytes s) k) ∨
      ∃ k, FirstAt (utf8Bytes t) (utf8Bytes s) k ∧ byteSize (takeBytes k s.toList) = k ∧
        Standard.position s t = Int64.ofNat (takeBytes k s.toList).length := by
  rw [utf8Bytes_eq, utf8Bytes_eq]
  cases h : indexOf? t.toList s.toList with
  | none =>
    refine .inl ⟨by rw [Standard.position, h], ?_⟩
    intro k hk
    obtain ⟨i, hi, _⟩ := (firstAt_iff k).1 hk
    cases h.symm.trans hi
  | some i =>
    obtain ⟨hposition, hroom, _⟩ := position_of_some hs h
    refine .inr ⟨byteSize (s.toList.take i), firstAt_of_indexOf? h, ?_, ?_⟩
    · rw [takeBytes_take]
    · rw [takeBytes_take, hposition, List.length_take_of_le (by omega)]

end Occurrence

/-- What the methods of texts say of each other, where `n` and `m` are the lengths they give the texts
`s` and `t`, and `i` is the place they give `t` in `s`: that of its bytes, counted in characters. -/
structure Registry.Positions (r : Registry) (s t : String) (n m i : Int64) : Prop where
  whole : r.textCall s "length" [] = .ok (.integer n)
  part : r.textCall t "length" [] = .ok (.integer m)
  place : r.textCall s "indexOf" [.string t] = .ok (.integer i)
  searched : i = -1 ∧ (∀ k, ¬ FirstAt (utf8Bytes t) (utf8Bytes s) k) ∨
    ∃ k, FirstAt (utf8Bytes t) (utf8Bytes s) k ∧ byteSize (takeBytes k s.toList) = k ∧
      i = Int64.ofNat (takeBytes k s.toList).length
  absent : i = -1 ↔ ¬ t.toList <:+: s.toList
  inside : i ≠ -1 → 0 ≤ i.toInt ∧ i.toInt ≤ n.toInt - m.toInt
  found : i ≠ -1 → (i + m).toInt = i.toInt + m.toInt ∧
    r.textCall s "substring" [.integer i, .integer (i + m)] = .ok (.string t)
  first : i ≠ -1 → ∀ j, 0 ≤ j → j < i → (j + m).toInt = j.toInt + m.toInt ∧
    ∃ w, w ≠ t ∧ r.textCall s "substring" [.integer j, .integer (j + m)] = .ok (.string w)
  starts : r.textCall s "startsWith" [.string t] = .ok (.boolean (decide (i = 0)))
  between : ∀ b e : Int64,
    if 0 ≤ b ∧ b ≤ e ∧ e ≤ n then
      (e - b).toInt = e.toInt - b.toInt ∧
        ∃ w, r.textCall s "substring" [.integer b, .integer e] = .ok (.string w)
    else
      ∃ reason, r.textCall s "substring" [.integer b, .integer e] = .error (.thrown reason)
  rejoined : ∀ b : Int64, 0 ≤ b → b ≤ n → ∃ front back : String,
    r.textCall s "substring" [.integer 0, .integer b] = .ok (.string front) ∧
    r.textCall s "substring" [.integer b] = .ok (.string back) ∧
    r.textCall front "concat" [.string back] = .ok (.string s)

/-- Lengths, places and parts of texts agree, on every text that fits into memory. -/
theorem text_positions (r : Registry) (hr : r.class? TypeName.string = some Standard.string)
    (s t : String) (hs : Storable s) : ∃ n m i : Int64, r.Positions s t n m i := by
  have hlt := hs.length_lt
  -- Where the text is found, its place is a number of characters that leaves room for it.
  have hfound : Standard.position s t ≠ -1 → ∃ k : Nat,
      indexOf? t.toList s.toList = some k ∧ Standard.position s t = Int64.ofNat k ∧
        k + t.toList.length ≤ s.toList.length := by
    intro h
    cases hk : indexOf? t.toList s.toList with
    | none => exact absurd (by rw [Standard.position, hk]) h
    | some k =>
      obtain ⟨hposition, hroom, _⟩ := position_of_some hs hk
      exact ⟨k, rfl, hposition, hroom⟩
  refine ⟨Int64.ofNat s.toList.length, Int64.ofNat t.toList.length, Standard.position s t, ?_⟩
  exact {
    whole := textCall_length hr s
    part := textCall_length hr t
    place := textCall_indexOf hr s t
    searched := position_searched hs
    absent := position_eq_neg_one_iff hs
    inside := by
      intro h
      obtain ⟨k, _, hposition, hroom⟩ := hfound h
      rw [hposition, Int64.toInt_ofNat_of_lt (by omega), Int64.toInt_ofNat_of_lt hlt,
        Int64.toInt_ofNat_of_lt (by omega)]
      omega
    found := by
      intro h
      obtain ⟨k, hk, hposition, hroom⟩ := hfound h
      rw [hposition]
      constructor
      · rw [toInt_add_ofNat (by omega), Int64.toInt_ofNat_of_lt (by omega),
          Int64.toInt_ofNat_of_lt (by omega)]
      · rw [textCall_between_ofNat hr hs hroom, textAt_eq_iff.2 (indexOf?_eq_some hk).2]
    first := by
      intro h j hj hjk
      obtain ⟨k, hk, hposition, hroom⟩ := hfound h
      obtain ⟨a, ha, rfl⟩ := exists_ofNat hj
      have hak : a < k := by
        rw [hposition, Int64.lt_iff_toInt_lt, Int64.toInt_ofNat_of_lt ha,
          Int64.toInt_ofNat_of_lt (by omega)] at hjk
        exact Int.ofNat_lt.1 hjk
      constructor
      · rw [toInt_add_ofNat (by omega), Int64.toInt_ofNat_of_lt ha,
          Int64.toInt_ofNat_of_lt (by omega)]
      · refine ⟨_, ?_, textCall_between_ofNat hr hs (by omega)⟩
        exact fun heq => not_prefix_of_lt hk hak (textAt_eq_iff.1 heq)
    starts := by
      rw [textCall_startsWith hr]
      congr 2
      rw [Bool.eq_iff_iff, List.isPrefixOf_iff_prefix, decide_eq_true_iff]
      exact (position_eq_zero_iff hs).symm
    between := textCall_between_cases hr hs
    rejoined := fun b => textCall_rejoined hr hs }

/-- A text of characters of one to four bytes, and one that occurs in it twice. -/
theorem text_positions_mixed :
    Registry.standard.class? TypeName.string = some Standard.string ∧ Storable "aé€😀é€" ∧
      ∃ n m i : Int64, Registry.standard.Positions "aé€😀é€" "é€" n m i := by
  have hclass : Registry.standard.class? TypeName.string = some Standard.string := by
    simp only [Registry.standard, Registry.class?_addClass]
    rfl
  have hsize : Storable "aé€😀é€" := by
    rw [Storable]
    decide
  exact ⟨hclass, hsize, text_positions Registry.standard hclass _ _ hsize⟩

end ScriptConsole
