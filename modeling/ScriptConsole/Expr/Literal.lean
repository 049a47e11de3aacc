namespace ScriptConsole

/-- What a character means behind a backslash. -/
def escaped : Char → Char
  | 'n' => '\n'
  | 't' => '\t'
  | 'r' => '\r'
  | c => c

/-- Decodes the escapes; a backslash at the end escapes nothing. -/
def unescape : List Char → Option (List Char)
  | [] => some []
  | ['\\'] => none
  | '\\' :: c :: cs => (unescape cs).map (escaped c :: ·)
  | c :: cs => (unescape cs).map (c :: ·)

/-- The text in front of a last character that must be `c`. -/
def dropClosing? (c : Char) (cs : List Char) : Option (List Char) :=
  if cs.getLast? = some c then some cs.dropLast else none

/-- The text that a string literal denotes.  Single quotes enclose it as it is, double quotes with
escapes. -/
def unquote (source : String) : Option String :=
  match source.toList with
  | '\'' :: cs => (dropClosing? '\'' cs).map String.ofList
  | '"' :: cs => ((dropClosing? '"' cs).bind unescape).map String.ofList
  | _ => none

theorem unquote_raw (cs : List Char) :
    unquote (String.ofList ('\'' :: cs ++ ['\''])) = some (String.ofList cs) := by
  simp [unquote, dropClosing?]

theorem unquote_escaped (cs : List Char) :
    unquote (String.ofList ('"' :: cs ++ ['"'])) = (unescape cs).map String.ofList := by
  simp [unquote, dropClosing?]

/-- The number that a non-empty run of decimal digits denotes. -/
def digitsValue? (ds : List Char) : Option Nat :=
  if !ds.isEmpty && ds.all Char.isDigit then
    some (ds.foldl (fun n d => 10 * n + (d.toNat - '0'.toNat)) 0)
  else none

/-- `n` as a 64-bit integer, when it fits. -/
def int64? (n : Int) : Option Int64 :=
  if Int64.minValue.toInt ≤ n ∧ n ≤ Int64.maxValue.toInt then some (Int64.ofInt n) else none

/-- The value of an integer literal with an optional minus sign. -/
def integerValue? (source : String) : Option Int64 :=
  match source.toList with
  | '-' :: ds => (digitsValue? ds).bind fun n => int64? (-n)
  | ds => (digitsValue? ds).bind fun n => int64? n

end ScriptConsole
