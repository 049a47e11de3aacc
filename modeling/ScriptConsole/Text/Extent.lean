namespace ScriptConsole

/-- The UTF-8 bytes that a list of characters takes. -/
def byteSize : List Char → Nat
  | [] => 0
  | c :: cs => c.utf8Size + byteSize cs

@[simp] theorem byteSize_append (a b : List Char) : byteSize (a ++ b) = byteSize a + byteSize b := by
  induction a with
  | nil => simp [byteSize]
  | cons c a ih => simp [byteSize, ih]; omega

theorem utf8ByteSize_ofList (cs : List Char) : (String.ofList cs).utf8ByteSize = byteSize cs := by
  induction cs with
  | nil => rfl
  | cons c cs ih =>
    rw [byteSize, ← ih, String.ofList_cons, String.utf8ByteSize_append,
      String.utf8ByteSize_singleton]

theorem byteSize_toList (s : String) : byteSize s.toList = s.utf8ByteSize := by
  rw [← utf8ByteSize_ofList, String.ofList_toList]

/-- The longest initial part of at most `limit` bytes that cuts no character. -/
def takeBytes (limit : Nat) : List Char → List Char
  | [] => []
  | c :: cs => if c.utf8Size ≤ limit then c :: takeBytes (limit - c.utf8Size) cs else []

theorem takeBytes_isPrefix (limit : Nat) (cs : List Char) : takeBytes limit cs <+: cs := by
  induction cs generalizing limit with
  | nil => simp [takeBytes]
  | cons c cs ih =>
    rw [takeBytes]
    split
    · exact List.cons_prefix_cons.2 ⟨rfl, ih _⟩
    · exact List.nil_prefix

theorem byteSize_takeBytes_le (limit : Nat) (cs : List Char) :
    byteSize (takeBytes limit cs) ≤ limit := by
  induction cs generalizing limit with
  | nil => simp [takeBytes, byteSize]
  | cons c cs ih =>
    rw [takeBytes]
    split
    · have := ih (limit - c.utf8Size)
      simp only [byteSize]
      omega
    · simp [byteSize]

/-- No longer initial part fits. -/
theorem isPrefix_takeBytes {limit : Nat} {p cs : List Char} (h : p <+: cs)
    (hp : byteSize p ≤ limit) : p <+: takeBytes limit cs := by
  induction cs generalizing limit p with
  | nil => exact h
  | cons c cs ih =>
    cases p with
    | nil => exact List.nil_prefix
    | cons d p =>
      obtain ⟨rfl, hps⟩ := List.cons_prefix_cons.1 h
      simp only [byteSize] at hp
      rw [takeBytes, if_pos (by omega)]
      exact List.cons_prefix_cons.2 ⟨rfl, ih hps (by omega)⟩

end ScriptConsole
