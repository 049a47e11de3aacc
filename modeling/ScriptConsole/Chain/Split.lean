import ScriptConsole.Chain.Basic
import ScriptConsole.ParseError
import ScriptConsole.Token.Lexer

namespace ScriptConsole

/-- The tokens of the expression being typed: those behind the last token outside all parentheses
that ends an expression.  `opened` holds the offsets of the parentheses still open, innermost
first, and `tail` the candidate so far. -/
def typedTail (opened : List Nat) (tail : List Token) :
    List Token → Except ParseError (List Token)
  | [] =>
    match opened with
    | [] => .ok tail
    | offset :: _ => .error (.unclosedParen offset)
  | t :: ts =>
    match t.kind with
    | .unterminatedString => .error (.unterminatedString t.offset)
    | .lParen => typedTail (t.offset :: opened) tail ts
    | .rParen =>
      match opened with
      | [] => .error (.unexpectedCloseParen t.offset)
      | _ :: opened => typedTail opened tail ts
    | kind =>
      if opened.isEmpty && kind.endsExpression then typedTail opened ts ts
      else typedTail opened tail ts

/-- The inside of a parenthesised group, its closing parenthesis and the tokens behind. -/
structure Group where
  inside : List Token
  close : Token
  rest : List Token

def Group.cons (t : Token) (g : Group) : Group := ⟨t :: g.inside, g.close, g.rest⟩

/-- The group whose opening parenthesis stands in front of the tokens, `depth` further
parentheses being open inside it. -/
def closeGroup? (depth : Nat) : List Token → Option Group
  | [] => none
  | t :: ts =>
    match t.kind, depth with
    | .rParen, 0 => some ⟨[], t, ts⟩
    | .rParen, depth + 1 => (closeGroup? depth ts).map (.cons t)
    | .lParen, depth => (closeGroup? (depth + 1) ts).map (.cons t)
    | _, depth => (closeGroup? depth ts).map (.cons t)

theorem length_rest_of_closeGroup? {depth : Nat} {ts : List Token} {g : Group}
    (h : closeGroup? depth ts = some g) : g.rest.length < ts.length := by
  induction ts generalizing depth g with
  | nil => cases h
  | cons t ts ih =>
    have push {d : Nat} (hd : (closeGroup? d ts).map (.cons t) = some g) :
        g.rest.length < (t :: ts).length := by
      obtain ⟨g', hg, rfl⟩ := Option.map_eq_some_iff.1 hd
      have hlt := ih hg
      exact Nat.lt_succ_of_lt hlt
    unfold closeGroup? at h
    split at h
    · cases h; exact Nat.lt_succ_self _
    · exact push h
    · exact push h
    · exact push h

/-- A link of a chain before it is known to be head, segment or the name being typed. -/
structure Link where
  kind : TokenKind
  text : String
  arguments : Option Arguments
  span : Span
  deriving DecidableEq, Repr

def sourceOf (ts : List Token) : String := String.ofList (ts.flatMap (·.text.toList))

/-- A link, and the tokens after it. -/
structure LinkRead (ts : List Token) where
  link : Link
  rest : List Token
  notLonger : rest.length ≤ ts.length

def LinkRead.single (t : Token) (ts : List Token) : LinkRead ts :=
  ⟨⟨t.kind, t.text, none, ⟨t.offset, t.stop⟩⟩, ts, Nat.le_refl _⟩

/-- The link that begins with `t`: a name, a call, or, where `atHead`, a literal. -/
def readLink (atHead : Bool) (t : Token) (ts : List Token) : Except ParseError (LinkRead ts) :=
  if t.kind = .ident then
    match ts with
    | [] => .ok (.single t [])
    | p :: rest =>
      if p.kind = .lParen then
        match h : closeGroup? 0 rest with
        | none => .error (.unclosedParen p.offset)
        | some g =>
          let args : Arguments := ⟨sourceOf g.inside, ⟨p.stop, g.close.offset⟩⟩
          .ok ⟨⟨t.kind, t.text, some args, ⟨t.offset, g.close.stop⟩⟩, g.rest,
            Nat.le_succ_of_le (Nat.le_of_lt (length_rest_of_closeGroup? h))⟩
      else .ok (.single t (p :: rest))
  else if atHead && t.kind.isLiteral then .ok (.single t ts)
  else .error (.unexpected t)

/-- The links of an expression, dots between them, and whether a dot ends it. -/
def readLinks (atHead : Bool) : List Token → Except ParseError (List Link × Bool)
  | [] => .ok ([], !atHead)
  | t :: ts =>
    match readLink atHead t ts with
    | .error e => .error e
    | .ok ⟨link, [], _⟩ => .ok ([link], false)
    | .ok ⟨link, d :: rest, _h⟩ =>
      if d.kind = .dot then (readLinks false rest).map fun r => (link :: r.1, r.2)
      else .error (.unexpected d)
termination_by ts => ts.length
decreasing_by exact Nat.lt_succ_of_lt _h

/-- Takes the name being typed off the end of the links. -/
def takeStem (links : List Link) (endsInDot : Bool) : Except ParseError (List Link × String) :=
  if endsInDot then .ok (links, "")
  else
    match links.getLast? with
    | none => .ok ([], "")
    | some last =>
      if last.kind = .ident ∧ last.arguments = none then .ok (links.dropLast, last.text)
      else .error .missingMemberName

/-- The head of a chain.  A call cannot be one. -/
def Link.toHead (l : Link) : Except ParseError Head :=
  match l.arguments with
  | some _ => .error (.unexpectedToken "(" l.span.stop)
  | none => .ok (if l.kind = .ident then .name l.text else .literal l.text)

def Link.toSegment (l : Link) : Segment := ⟨l.text, l.arguments, l.span⟩

/-- The access chain at the end of `line`.  Dots inside strings and inside parentheses split nothing,
and the arguments of a call stay unread. -/
def splitChain (line : String) : Except ParseError AccessChain := do
  let tokens := tokenize line
  let tail ← typedTail [] tokens tokens
  let start := (tail.head?.map (·.offset)).getD (byteSize line.toList)
  let (links, endsInDot) ← readLinks true tail
  let (links, stem) ← takeStem links endsInDot
  match links with
  | [] => pure ⟨start, .topLevel, ⟨start, start⟩, [], stem⟩
  | first :: rest => do
    let head ← first.toHead
    pure ⟨start, head, first.span, rest.map Link.toSegment, stem⟩

end ScriptConsole
