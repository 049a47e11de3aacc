import ScriptConsole.Proofs.Text.ByteOrder
import ScriptConsole.Text.Occurrence

namespace ScriptConsole

theorem indexOf?_eq_none_iff (needle text : List Char) :
    indexOf? needle text = none ↔ ¬ needle <:+: text := by
  induction text with
  | nil => cases needle <;> simp [indexOf?]
  | cons c cs ih =>
    rw [indexOf?, List.infix_cons_iff, ← List.isPrefixOf_iff_prefix]
    split
    · next hp => simp [hp]
    · next hp => simp [hp, ih]

theorem indexOf?_eq_zero_iff (needle text : List Char) :
    indexOf? needle text = some 0 ↔ needle <+: text := by
  cases text with
  | nil => cases needle <;> simp [indexOf?]
  | cons c cs =>
    rw [indexOf?, ← List.isPrefixOf_iff_prefix]
    split
    · next hp => simp [hp]
    · next hp => simp [hp]

theorem not_prefix_of_lt {needle text : List Char} {i j : Nat} (h : indexOf? needle text = some i)
    (hj : j < i) : ¬ needle <+: text.drop j := by
  induction text generalizing i j with
  | nil =>
    have hle := (indexOf?_eq_some h).1
    simp only [List.length_nil] at hle
    omega
  | cons c cs ih =>
    rw [indexOf?] at h
    split at h
    · cases h
      omega
    · next hp =>
      obtain ⟨i, hi, rfl⟩ := Option.map_eq_some_iff.1 h
      cases j with
      | zero => rwa [List.drop_zero, ← List.isPrefixOf_iff_prefix]
      | succ j => exact ih hi (by omega)

/-- The bytes of characters in UTF-8. -/
def encode (cs : List Char) : List UInt8 := cs.flatMap String.utf8EncodeChar

@[simp] theorem encode_nil : encode [] = [] := rfl

@[simp] theorem encode_cons (c : Char) (cs : List Char) :
    encode (c :: cs) = String.utf8EncodeChar c ++ encode cs := List.flatMap_cons

theorem length_encode (cs : List Char) : (encode cs).length = byteSize cs := by
  induction cs with
  | nil => rfl
  | cons c cs ih => rw [encode_cons, List.length_append, String.length_utf8EncodeChar, ih, byteSize]

/-- A byte that stands behind the first byte of a character. -/
def Continuation (b : UInt8) : Prop := 128 ≤ b.toNat ∧ b.toNat < 192

theorem utf8EncodeChar_cons (c : Char) :
    ∃ b bs, String.utf8EncodeChar c = b :: bs ∧ ¬ Continuation b ∧ ∀ x ∈ bs, Continuation x := by
  have hbound := charVal_lt c
  unfold String.utf8EncodeChar Continuation
  generalize c.val.toNat = m at hbound
  dsimp only
  split_ifs <;>
    refine ⟨_, _, rfl, ?_, ?_⟩ <;>
    simp only [List.mem_cons, List.not_mem_nil, or_false, forall_eq_or_imp, forall_eq, false_imp_iff,
      implies_true, UInt8.toNat_ofNat', Nat.reducePow] <;>
    omega

/-- The bytes of a character tell where they end. -/
theorem utf8EncodeChar_cancel {c d : Char} {xs ys : List UInt8}
    (h : String.utf8EncodeChar c ++ xs = String.utf8EncodeChar d ++ ys) : c = d ∧ xs = ys := by
  have hcd : c = d := by
    rcases Nat.lt_trichotomy c.toNat d.toNat with hlt | heq | hlt
    · exact absurd (utf8EncodeChar_lt hlt xs ys) (h ▸ List.lt_irrefl _)
    · exact Char.toNat_inj.1 heq
    · exact absurd (utf8EncodeChar_lt hlt ys xs) (h ▸ List.lt_irrefl _)
  subst hcd
  exact ⟨rfl, List.append_cancel_left h⟩

theorem encode_prefix_iff (cs ds : List Char) : encode cs <+: encode ds ↔ cs <+: ds := by
  induction cs generalizing ds with
  | nil => simp
  | cons c cs ih =>
    obtain ⟨b, bs, hbytes, _⟩ := utf8EncodeChar_cons c
    cases ds with
    | nil => simp [hbytes]
    | cons d ds =>
      rw [List.cons_prefix_cons, ← ih]
      constructor
      · intro h
        obtain ⟨rest, hrest⟩ := h
        rw [encode_cons, encode_cons, List.append_assoc] at hrest
        obtain ⟨hcd, htail⟩ := utf8EncodeChar_cancel hrest
        exact ⟨hcd, rest, htail⟩
      · intro h
        obtain ⟨rfl, hrest⟩ := h
        rw [encode_cons, encode_cons, List.prefix_append_right_inj]
        exact hrest

theorem drop_encode (cs : List Char) (j : Nat) :
    (encode cs).drop (byteSize (cs.take j)) = encode (cs.drop j) := by
  have hcut : encode cs = encode (cs.take j) ++ encode (cs.drop j) := by
    rw [encode, encode, encode, ← List.flatMap_append, List.take_append_drop]
  rw [hcut, ← length_encode, List.drop_left]

/-- Inside a character no other one begins. -/
theorem not_prefix_inside (c d : Char) (cs : List Char) (rest : List UInt8) {k : Nat}
    (hk : k + 1 < d.utf8Size) :
    ¬ encode (c :: cs) <+: (String.utf8EncodeChar d ++ rest).drop (k + 1) := by
  obtain ⟨b, bs, hc, hb, _⟩ := utf8EncodeChar_cons c
  obtain ⟨a, as, hd, _, has⟩ := utf8EncodeChar_cons d
  have hlength : as.length + 1 = d.utf8Size := by
    rw [← String.length_utf8EncodeChar, hd, List.length_cons]
  have hlt : k < as.length := by omega
  intro h
  rw [encode_cons, hc, hd, List.cons_append, List.cons_append, List.drop_succ_cons,
    List.drop_append_of_le_length (Nat.le_of_lt hlt), List.drop_eq_getElem_cons hlt, List.cons_append,
    List.cons_prefix_cons] at h
  exact hb (h.1 ▸ has as[k] (List.getElem_mem hlt))

theorem drop_encode_cons (d : Char) (ds : List Char) {k : Nat} (hk : d.utf8Size ≤ k) :
    (encode (d :: ds)).drop k = (encode ds).drop (k - d.utf8Size) := by
  rw [encode_cons, List.drop_append, String.length_utf8EncodeChar, List.drop_eq_nil_of_le,
    List.nil_append]
  rwa [String.length_utf8EncodeChar]

/-- The bytes of a text that is not empty occur where a character begins. -/
theorem exists_take_of_prefix {c : Char} {cs text : List Char} {k : Nat}
    (h : encode (c :: cs) <+: (encode text).drop k) :
    ∃ j, k = byteSize (text.take j) ∧ c :: cs <+: text.drop j := by
  induction text generalizing k with
  | nil =>
    obtain ⟨b, bs, hbytes, _⟩ := utf8EncodeChar_cons c
    simp [hbytes] at h
  | cons d ds ih =>
    cases k with
    | zero => exact ⟨0, rfl, (encode_prefix_iff _ _).1 h⟩
    | succ k =>
      rcases Nat.lt_or_ge (k + 1) d.utf8Size with hinside | hbehind
      · exact absurd h (not_prefix_inside c d cs (encode ds) hinside)
      · rw [drop_encode_cons d ds hbehind] at h
        obtain ⟨j, hj, hprefix⟩ := ih h
        refine ⟨j + 1, ?_, hprefix⟩
        rw [List.take_succ_cons, byteSize]
        omega

theorem byteSize_take_le (cs : List Char) {i j : Nat} (h : i ≤ j) :
    byteSize (cs.take i) ≤ byteSize (cs.take j) := by
  obtain ⟨rest, hrest⟩ := List.take_prefix_take_left (l := cs) h
  rw [← hrest, byteSize_append]
  exact Nat.le_add_right _ _

theorem takeBytes_take (cs : List Char) (i : Nat) :
    takeBytes (byteSize (cs.take i)) cs = cs.take i := by
  induction cs generalizing i with
  | nil => simp [takeBytes]
  | cons c cs ih =>
    cases i with
    | zero =>
      have hpos := Char.utf8Size_pos c
      simp only [List.take_zero, byteSize, takeBytes]
      rw [if_neg (by omega)]
    | succ i => simp [byteSize, takeBytes, ih]

/-- The bytes of `needle` occur at `k`, and nowhere in front of it. -/
structure FirstAt (needle text : List UInt8) (k : Nat) : Prop where
  here : needle <+: text.drop k
  first : ∀ l, l < k → ¬ needle <+: text.drop l

theorem FirstAt.unique {needle text : List UInt8} {k l : Nat} (hk : FirstAt needle text k)
    (hl : FirstAt needle text l) : k = l := by
  rcases Nat.lt_trichotomy k l with hlt | heq | hlt
  · exact absurd hk.here (hl.first k hlt)
  · exact heq
  · exact absurd hl.here (hk.first l hlt)

section Search
variable {needle text : List Char}

theorem firstAt_of_indexOf? {i : Nat} (h : indexOf? needle text = some i) :
    FirstAt (encode needle) (encode text) (byteSize (text.take i)) := by
  constructor
  · rw [drop_encode, encode_prefix_iff]
    exact (indexOf?_eq_some h).2
  · intro l hl hoccurs
    cases needle with
    | nil =>
      cases (indexOf?_eq_zero_iff [] text).2 List.nil_prefix |>.symm.trans h
      exact Nat.not_lt_zero l hl
    | cons c cs =>
      obtain ⟨j, rfl, hprefix⟩ := exists_take_of_prefix hoccurs
      rcases Nat.lt_or_ge j i with hj | hj
      · exact not_prefix_of_lt h hj hprefix
      · exact absurd (byteSize_take_le text hj) (Nat.not_le_of_lt hl)

/-- What a search among the bytes finds is the end of the characters in front of the first
occurrence. -/
theorem firstAt_iff (k : Nat) :
    FirstAt (encode needle) (encode text) k ↔
      ∃ i, indexOf? needle text = some i ∧ k = byteSize (text.take i) := by
  constructor
  · intro hk
    cases h : indexOf? needle text with
    | some i => exact ⟨i, rfl, hk.unique (firstAt_of_indexOf? h)⟩
    | none =>
      exfalso
      rw [indexOf?_eq_none_iff] at h
      cases needle with
      | nil => exact h List.nil_infix
      | cons c cs =>
        obtain ⟨j, _, rest, hrest⟩ := exists_take_of_prefix hk.here
        refine h ⟨text.take j, rest, ?_⟩
        rw [List.append_assoc, hrest, List.take_append_drop]
  · intro h
    obtain ⟨i, hi, rfl⟩ := h
    exact firstAt_of_indexOf? hi

end Search

end ScriptConsole
