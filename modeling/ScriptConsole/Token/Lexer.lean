import ScriptConsole.Text.Identifier
import ScriptConsole.Token.Basic

namespace ScriptConsole

def isTokenBlank (c : Char) : Bool := c == ' ' || c == '\t' || c == '\r' || c == '\n'

def isOperatorChar (c : Char) : Bool := "+-*/%!<>&|^~?:=".toList.contains c

/-- The kind of a token, and how many characters of it follow the first. -/
abbrev Munch := TokenKind × Nat

/-- The same token with `n` more characters in front. -/
def Munch.extend (m : Munch) (n : Nat) : Munch := (m.1, m.2 + n)

def runLength (p : Char → Bool) (cs : List Char) : Nat := (cs.takeWhile p).length

theorem runLength_le (p : Char → Bool) (cs : List Char) : runLength p cs ≤ cs.length :=
  (List.takeWhile_sublist p).length_le

/-- A number after its first digit.  A dot belongs to it only when a digit follows. -/
def munchNumber (cs : List Char) : Munch :=
  let whole := runLength Char.isDigit cs
  match cs.drop whole with
  | '.' :: rest =>
    match runLength Char.isDigit rest with
    | 0 => (.integer, whole)
    | fraction => (.decimal, whole + 1 + fraction)
  | _ => (.integer, whole)

/-- A single-quoted string after its opening quote. -/
def munchRaw (cs : List Char) : Munch :=
  let inner := runLength (· ≠ '\'') cs
  if inner < cs.length then (.string, inner + 1) else (.unterminatedString, inner)

/-- A double-quoted string after its opening quote.  A backslash takes the next character with it,
and stops the string when no character or a line feed is next. -/
def munchEscaped : List Char → Munch
  | [] => (.unterminatedString, 0)
  | '"' :: _ => (.string, 1)
  | '\\' :: [] => (.unterminatedString, 0)
  | '\\' :: c :: cs =>
    if c = '\n' then (.unterminatedString, 0)
    else (munchEscaped cs).extend 2
  | _ :: cs => (munchEscaped cs).extend 1

def punctuation? : Char → Option TokenKind
  | '(' => some .lParen
  | ')' => some .rParen
  | '[' => some .lBracket
  | ']' => some .rBracket
  | '{' => some .lBrace
  | '}' => some .rBrace
  | '.' => some .dot
  | ',' => some .comma
  | ';' => some .semicolon
  | _ => none

/-- An operator after its first character `c`.  A lone `=` assigns. -/
def munchOperator (c : Char) (cs : List Char) : Munch :=
  match runLength isOperatorChar cs with
  | 0 => (if c = '=' then .assign else .operator, 0)
  | more => (.operator, more)

/-- The token that begins with `c` in front of `cs`. -/
def munch (c : Char) (cs : List Char) : Munch :=
  if isTokenBlank c then (.whitespace, runLength isTokenBlank cs)
  else if isIdentStart c then (.ident, runLength isIdentContinue cs)
  else if c.isDigit then munchNumber cs
  else if c = '\'' then munchRaw cs
  else if c = '"' then munchEscaped cs
  else if isOperatorChar c then munchOperator c cs
  else
    match punctuation? c with
    | some kind => (kind, 0)
    | none => (.unknown, 0)

/-- The tokens of a text that begins `offset` bytes into the line. -/
def tokensFrom (offset : Nat) : List Char → List Token
  | [] => []
  | c :: cs =>
    let (kind, more) := munch c cs
    let text := c :: cs.take more
    ⟨kind, String.ofList text, offset⟩ :: tokensFrom (offset + byteSize text) (cs.drop more)
termination_by cs => cs.length
decreasing_by simp only [List.length_drop, List.length_cons]; omega

def tokenize (text : String) : List Token := tokensFrom 0 text.toList

theorem tokensFrom_texts (offset : Nat) (cs : List Char) :
    (tokensFrom offset cs).flatMap (·.text.toList) = cs := by
  fun_induction tokensFrom offset cs with
  | case1 => rfl
  | case2 offset c cs kind more h text ih =>
    rw [List.flatMap_cons, ih]
    simp [text]

/-- Nothing of the text is lost. -/
theorem tokenize_texts (text : String) :
    (tokenize text).flatMap (·.text.toList) = text.toList :=
  tokensFrom_texts 0 text.toList

end ScriptConsole
