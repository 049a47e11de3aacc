import ScriptConsole.Text.LetterCaseTable

namespace ScriptConsole

def CaseRun.covers (r : CaseRun) (n : Nat) : Bool :=
  r.first ≤ n && n ≤ r.last && (n - r.first) % r.step == 0

/-- The other case of `c`: one letter by a run, several by an expansion, else `c` itself. -/
def otherCase (runs : List CaseRun) (expansions : List (Nat × List Nat)) (c : Char) : List Char :=
  match runs.find? (·.covers c.toNat) with
  | some r => [Char.ofNat (c.toNat + r.shift).toNat]
  | none =>
    match expansions.lookup c.toNat with
    | some ns => ns.map Char.ofNat
    | none => [c]

/-- The upper case of a text by Unicode's full, locale-free mapping. -/
def toUpperCase (s : String) : String :=
  String.ofList (s.toList.flatMap (otherCase upperRuns upperExpansions))

/-- Whether the first character that is not case-ignorable is a cased letter. -/
def startsCased (cs : List Char) : Bool :=
  match cs.dropWhile caseIgnorableRanges.contains with
  | [] => false
  | c :: _ => casedRanges.contains c

/-- The lower form of a capital sigma between `before`, read backwards, and `after`. -/
def lowerSigma (before after : List Char) : Char :=
  if startsCased before && !startsCased after then 'ς' else 'σ'

/-- The lower case of a text whose preceding part, read backwards, is `before`. -/
def lowerAfter (before : List Char) : List Char → List Char
  | [] => []
  | c :: cs =>
    (if c = 'Σ' then [lowerSigma before cs] else otherCase lowerRuns lowerExpansions c) ++
      lowerAfter (c :: before) cs

/-- The lower case of a text by Unicode's full, locale-free mapping.  A capital sigma becomes the
final form `ς` at the end of a word. -/
def toLowerCase (s : String) : String := String.ofList (lowerAfter [] s.toList)

end ScriptConsole
