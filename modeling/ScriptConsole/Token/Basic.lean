import ScriptConsole.Text.Extent

namespace ScriptConsole

inductive TokenKind where
  | whitespace
  | ident
  | integer
  | decimal
  | string
  /-- A string whose closing quote is missing. -/
  | unterminatedString
  | lParen
  | rParen
  | lBracket
  | rBracket
  | lBrace
  | rBrace
  | dot
  | comma
  | semicolon
  | assign
  | operator
  /-- A character that begins no token. -/
  | unknown
  deriving DecidableEq, Repr

namespace TokenKind

def isLiteral : TokenKind → Bool
  | integer | decimal | string => true
  | _ => false

/-- Kinds that, outside all parentheses, end the expression on their left. -/
def endsExpression : TokenKind → Bool
  | whitespace | assign | semicolon | comma | operator
  | lBracket | rBracket | lBrace | rBrace | unknown => true
  | _ => false

end TokenKind

/-- Blanks are tokens too, so that the tokens of a line cover all of it. -/
structure Token where
  kind : TokenKind
  text : String
  /-- Bytes of the line in front of the token. -/
  offset : Nat
  deriving DecidableEq, Repr

/-- The offset just past the token. -/
def Token.stop (t : Token) : Nat := t.offset + byteSize t.text.toList

end ScriptConsole
