import ScriptConsole.QualifiedName

namespace ScriptConsole

inductive Literal where
  | string (text : String)
  | integer (value : Int64)
  | boolean (value : Bool)
  | null
  deriving DecidableEq, Repr

/-- The words that are literals where an expression begins. -/
def literalWord? (word : String) : Option Literal :=
  if word = "true" then some (.boolean true)
  else if word = "false" then some (.boolean false)
  else if word = "null" then some .null
  else none

theorem literalWord_of_not_mem (text : String) (h : text ∉ ["true", "false", "null"]) :
    literalWord? text = none := by
  simp only [List.mem_cons, List.not_mem_nil, or_false, not_or] at h
  rw [literalWord?, if_neg h.1, if_neg h.2.1, if_neg h.2.2]

inductive Expr where
  | literal (value : Literal)
  | name (text : String)
  /-- A function call without a receiver. -/
  | call (function : String) (args : List Expr)
  | field (receiver : Expr) (member : String)
  | invoke (receiver : Expr) (member : String) (args : List Expr)

namespace Expr

/-- A name, or a call when arguments follow it. -/
def named (text : String) : Option (List Expr) → Expr
  | none => name text
  | some args => call text args

/-- A member of `receiver`, called when arguments follow it. -/
def member (receiver : Expr) (text : String) : Option (List Expr) → Expr
  | none => field receiver text
  | some args => invoke receiver text args

/-- The dotted path that a chain of plain names spells. -/
def path? : Expr → Option QualifiedName
  | name text => some text
  | field receiver member => receiver.path?.map (QualifiedName.join · member)
  | _ => none

end Expr

/-- A line run by the console. -/
inductive Statement where
  | assign (target : String) (value : Expr)
  | expr (value : Expr)

end ScriptConsole
