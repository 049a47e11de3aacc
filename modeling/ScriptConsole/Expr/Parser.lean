import ScriptConsole.Expr.Basic
import ScriptConsole.Expr.Literal
import ScriptConsole.ParseError
import ScriptConsole.Token.Lexer

/-!
Reading a closed expression or a statement from the tokens of a line.  Blanks carry no meaning
here.

    statement := IDENT '=' expr | expr
    expr      := primary ( '.' IDENT call_args? )*
    primary   := literal | IDENT call_args? | '(' expr ')'
    call_args := '(' ( expr ( ',' expr )* )? ')'
    literal   := STRING | '-'? INTEGER | true | false | null

An expression begins one level below its surroundings, and each of its member links one level
below the receiver.  Levels are counted down from `maxDepth`.
-/

namespace ScriptConsole

/-- The deepest nesting of parentheses and member links. -/
def maxDepth : Nat := 128

/-- What was read from the front of `ts`, and the tokens after it. -/
structure Parsed (α : Type) (ts : List Token) where
  value : α
  rest : List Token
  shorter : rest.length < ts.length

/-- Reads one thing from the front of the tokens, never without using up some of them. -/
abbrev Parser (α : Type) := (ts : List Token) → Except ParseError (Parsed α ts)

/-- What was read from the front of `ts`, possibly without using up any of them. -/
structure Taken (α : Type) (ts : List Token) where
  value : α
  rest : List Token
  notLonger : rest.length ≤ ts.length

/-- One or more arguments, commas between them, up to the closing parenthesis. -/
def argumentList (expr : Parser Expr) (ts : List Token) :
    Except ParseError (Parsed (List Expr) ts) :=
  match expr ts with
  | .error e => .error e
  | .ok ⟨_, [], _⟩ => .error .unexpectedEnd
  | .ok ⟨arg, t :: rest, h⟩ =>
    match t.kind with
    | .rParen => .ok ⟨[arg], rest, Nat.lt_trans (Nat.lt_succ_self _) h⟩
    | .comma =>
      match argumentList expr rest with
      | .error e => .error e
      | .ok ⟨args, rest', h'⟩ =>
        .ok ⟨arg :: args, rest', Nat.lt_trans h' (Nat.lt_trans (Nat.lt_succ_self _) h)⟩
    | _ => .error (.unexpected t)
termination_by ts.length
decreasing_by exact Nat.lt_trans (Nat.lt_succ_self _) h

/-- The arguments of a call after its opening parenthesis. -/
def arguments (expr : Parser Expr) : Parser (List Expr)
  | [] => argumentList expr []
  | t :: ts =>
    if t.kind = .rParen then .ok ⟨[], ts, Nat.lt_succ_self _⟩ else argumentList expr (t :: ts)

/-- The arguments of a call, when an opening parenthesis is next. -/
def optionalArguments (expr : Parser Expr) :
    (ts : List Token) → Except ParseError (Taken (Option (List Expr)) ts)
  | [] => .ok ⟨none, [], Nat.le_refl _⟩
  | p :: rest =>
    if p.kind = .lParen then
      (arguments expr rest).map fun r =>
        ⟨some r.value, r.rest, Nat.le_succ_of_le (Nat.le_of_lt r.shorter)⟩
    else .ok ⟨none, p :: rest, Nat.le_refl _⟩

def integerLiteral (source : String) : Except ParseError Expr :=
  match integerValue? source with
  | some n => .ok (.literal (.integer n))
  | none => .error (.invalidLiteral source)

/-- A literal, a name, a call without a receiver, or an expression in parentheses.  `expr` reads
the expressions inside. -/
def primary (expr : Parser Expr) : Parser Expr
  | [] => .error .unexpectedEnd
  | t :: ts =>
    let here (e : Expr) : Parsed Expr (t :: ts) := ⟨e, ts, Nat.lt_succ_self _⟩
    match t.kind with
    | .string =>
      match unquote t.text with
      | some text => .ok (here (.literal (.string text)))
      | none => .error (.invalidLiteral t.text)
    | .integer => (integerLiteral t.text).map here
    | .operator =>
      match ts with
      | [] => .error (.unexpected t)
      | digits :: rest =>
        if t.text = "-" ∧ digits.kind = .integer then
          (integerLiteral ("-" ++ digits.text)).map fun e =>
            ⟨e, rest, Nat.lt_succ_of_lt (Nat.lt_succ_self _)⟩
        else .error (.unexpected t)
    | .ident =>
      match literalWord? t.text with
      | some l => .ok (here (.literal l))
      | none =>
        (optionalArguments expr ts).map fun r =>
          ⟨.named t.text r.value, r.rest, Nat.lt_succ_of_le r.notLonger⟩
    | .lParen =>
      match expr ts with
      | .error e => .error e
      | .ok ⟨_, [], _⟩ => .error .unexpectedEnd
      | .ok ⟨e, close :: rest, h⟩ =>
        if close.kind = .rParen then
          .ok ⟨e, rest, Nat.lt_succ_of_lt (Nat.lt_trans (Nat.lt_succ_self _) h)⟩
        else .error (.unexpected close)
    | .unterminatedString => .error (.unterminatedString t.offset)
    | _ => .error (.unexpected t)

/-- The member name behind a dot, with its arguments if there are any. -/
def memberLink (expr : Parser Expr) (receiver : Expr) : Parser Expr
  | [] => .error .unexpectedEnd
  | member :: ts =>
    if member.kind = .ident then
      (optionalArguments expr ts).map fun r =>
        ⟨.member receiver member.text r.value, r.rest, Nat.lt_succ_of_le r.notLonger⟩
    else .error (.unexpected member)

mutual

/-- An expression with `levels` levels left for it. -/
def expression : (levels : Nat) → Parser Expr
  | 0, _ => .error (.tooDeep maxDepth)
  | levels + 1, ts =>
    match primary (expression levels) ts with
    | .error e => .error e
    | .ok first =>
      (memberLinks levels first.value first.rest).map fun r =>
        ⟨r.value, r.rest, Nat.lt_of_le_of_lt r.notLonger first.shorter⟩

/-- The member links that follow `receiver`, with `levels` levels left for them. -/
def memberLinks : (levels : Nat) → Expr → (ts : List Token) → Except ParseError (Taken Expr ts)
  | _, receiver, [] => .ok ⟨receiver, [], Nat.le_refl _⟩
  | 0, receiver, t :: ts =>
    if t.kind = .dot then .error (.tooDeep maxDepth) else .ok ⟨receiver, t :: ts, Nat.le_refl _⟩
  | levels + 1, receiver, t :: ts =>
    if t.kind = .dot then
      match memberLink (expression levels) receiver ts with
      | .error e => .error e
      | .ok link =>
        (memberLinks levels link.value link.rest).map fun r =>
          ⟨r.value, r.rest, Nat.le_succ_of_le (Nat.le_trans r.notLonger (Nat.le_of_lt link.shorter))⟩
    else .ok ⟨receiver, t :: ts, Nat.le_refl _⟩

end

/-- The tokens that carry meaning inside an expression. -/
def significantTokens (source : String) : List Token :=
  (tokenize source).filter (·.kind ≠ .whitespace)

/-- Fails at the first token that is left over. -/
def atEnd {α : Type} (value : α) : List Token → Except ParseError α
  | [] => .ok value
  | t :: _ => .error (.unexpected t)

/-- A whole text as one expression. -/
def parseExpression (source : String) : Except ParseError Expr := do
  let e ← expression maxDepth (significantTokens source)
  atEnd e.value e.rest

/-- An expression, optionally ended by a semicolon, up to the end of the tokens. -/
def closingExpression (ts : List Token) : Except ParseError Expr := do
  let e ← expression maxDepth ts
  match e.rest with
  | t :: rest => if t.kind = .semicolon then atEnd e.value rest else atEnd e.value e.rest
  | [] => pure e.value

/-- A whole text as one statement: an assignment or an expression. -/
def parseStatement (source : String) : Except ParseError Statement :=
  match significantTokens source with
  | target :: eq :: rest =>
    if target.kind = .ident ∧ eq.kind = .assign then
      (closingExpression rest).map (.assign target.text)
    else (closingExpression (target :: eq :: rest)).map .expr
  | ts => (closingExpression ts).map .expr

end ScriptConsole
