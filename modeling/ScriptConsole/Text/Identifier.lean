import ScriptConsole.Text.IdentifierTable

namespace ScriptConsole

/-- An ASCII letter, `_`, `$`, or a character of `XID_Start`. -/
def isIdentStart (c : Char) : Bool :=
  if c.toNat < 0x80 then c.isAlpha || c == '_' || c == '$'
  else if c.toNat < 0x3000 then identStartLow.contains c
  else if c.toNat < 0x10000 then identStartMiddle.contains c
  else identStartHigh.contains c

/-- A character that may follow the first one only: a digit, a combining mark, a joiner, … -/
def isIdentExtend (c : Char) : Bool :=
  if c.toNat < 0x80 then c.isDigit
  else if c.toNat < 0x3000 then identExtendLow.contains c
  else if c.toNat < 0x10000 then identExtendMiddle.contains c
  else identExtendHigh.contains c

def isIdentContinue (c : Char) : Bool := isIdentStart c || isIdentExtend c

theorem isIdentContinue_of_isIdentStart {c : Char} (h : isIdentStart c = true) :
    isIdentContinue c = true := by
  simp [isIdentContinue, h]

/-- One start character followed by continue characters only. -/
def isIdentifier (s : String) : Bool :=
  match s.toList with
  | [] => false
  | c :: cs => isIdentStart c && cs.all isIdentContinue

theorem isIdentifier_iff (s : String) :
    isIdentifier s = true ↔
      ∃ c cs, s.toList = c :: cs ∧ isIdentStart c = true ∧ ∀ d ∈ cs, isIdentContinue d = true := by
  unfold isIdentifier
  cases s.toList with
  | nil => simp
  | cons c cs =>
    simp only [Bool.and_eq_true, List.all_eq_true]
    constructor
    · exact fun h => ⟨c, cs, rfl, h⟩
    · rintro ⟨_, _, ⟨⟩, h⟩
      exact h

end ScriptConsole
