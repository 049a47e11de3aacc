import ScriptConsole.Token.Basic

namespace ScriptConsole

inductive ParseError where
  /-- A `(` that nothing closes. -/
  | unclosedParen (offset : Nat)
  /-- A `)` that closes nothing. -/
  | unexpectedCloseParen (offset : Nat)
  | unterminatedString (offset : Nat)
  /-- A token that cannot stand where it stands. -/
  | unexpectedToken (text : String) (offset : Nat)
  /-- The line ends where more is required. -/
  | unexpectedEnd
  /-- A literal without a value, such as an integer of more than 64 bits. -/
  | invalidLiteral (text : String)
  /-- The expression being typed ends in something other than a member name. -/
  | missingMemberName
  /-- Parentheses and member links nest deeper than the limit. -/
  | tooDeep (limit : Nat)
  deriving DecidableEq, Repr

namespace ParseError

/-- The error of a token that cannot stand where it stands. -/
def unexpected (t : Token) : ParseError := .unexpectedToken t.text t.offset

def message : ParseError → String
  | unclosedParen offset => s!"unclosed parenthesis at offset {offset}"
  | unexpectedCloseParen offset => s!"unexpected `)` at offset {offset}"
  | unterminatedString offset => s!"unterminated string literal at offset {offset}"
  | unexpectedToken text offset => s!"unexpected `{text}` at offset {offset}"
  | unexpectedEnd => "unexpected end of input"
  | invalidLiteral text => s!"invalid literal `{text}`"
  | missingMemberName => "expected a member name after the last `.`"
  | tooDeep limit => s!"expression nested deeper than {limit} levels"

end ParseError
end ScriptConsole
