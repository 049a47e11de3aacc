import ScriptConsole.Text.QuotedTable

namespace ScriptConsole

/-- Whether a character can be seen on its own. -/
def isVisible (c : Char) : Bool :=
  !(graphemeExtendRanges.contains c || unprintableRanges.contains c)

/-- How a character is written between double quotes.  One that cannot be seen is written by its
code point. -/
def quotedChar (c : Char) : List Char :=
  match c with
  | '"' => ['\\', '"']
  | '\\' => ['\\', '\\']
  | '\n' => ['\\', 'n']
  | '\r' => ['\\', 'r']
  | '\t' => ['\\', 't']
  | '\x00' => ['\\', '0']
  | c =>
    if isVisible c then [c]
    else ['\\', 'u', '{'] ++ Nat.toDigits 16 c.toNat ++ ['}']

def quoted (text : String) : String :=
  String.ofList ('"' :: text.toList.flatMap quotedChar ++ ['"'])

end ScriptConsole
