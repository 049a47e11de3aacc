import ScriptConsole.Entries

namespace ScriptConsole

namespace TypeName

def object : String := "java.lang.Object"
def string : String := "java.lang.String"
def long : String := "java.lang.Long"
def boolean : String := "java.lang.Boolean"

/-- The type of methods that return nothing.  It has no members. -/
def void : String := "void"

end TypeName

/-- An object stores its fields in the order in which they were first set.  Its members are those
of its class, whatever it stores. -/
inductive Value where
  | null
  /-- What a method that returns nothing yields. -/
  | void
  | boolean (value : Bool)
  | integer (value : Int64)
  | string (text : String)
  | object (className : String) (fields : List (String × Value))

instance : Inhabited Value := ⟨.null⟩

namespace Value

/-- The dynamic type.  Only `null` has none. -/
def type? : Value → Option String
  | null => none
  | void => some TypeName.void
  | boolean _ => some TypeName.boolean
  | integer _ => some TypeName.long
  | string _ => some TypeName.string
  | object className _ => some className

def isNull : Value → Bool
  | null => true
  | _ => false

def string? : Value → Option String
  | string text => some text
  | _ => none

def integer? : Value → Option Int64
  | integer n => some n
  | _ => none

/-- The stored fields of an object. -/
def fields? : Value → Option (Entries Value)
  | object _ fields => some fields
  | _ => none

/-- What an object stores under `name`. -/
def stored? (v : Value) (name : String) : Option Value := v.fields?.bind (Entries.get? name)

mutual

/-- Equality.  The order of an object's fields does not count. -/
def same : Value → Value → Bool
  | null, null => true
  | void, void => true
  | boolean a, boolean b => a == b
  | integer a, integer b => a == b
  | string a, string b => a == b
  | object c fs, object d gs => c == d && fs.length == gs.length && storedIn fs gs
  | _, _ => false

/-- Whether `gs` stores the same value as each of the fields. -/
def storedIn : List (String × Value) → Entries Value → Bool
  | [], _ => true
  | (name, v) :: fs, gs =>
    (match Entries.get? name gs with
      | some w => same v w
      | none => false) && storedIn fs gs

end

mutual

/-- The text that displays a value. -/
def display : Value → String
  | null => "null"
  | void => "undefined"
  | boolean b => if b then "true" else "false"
  | integer n => toString n.toInt
  | string text => text
  | object className [] => className ++ " \x7b\x7d"
  | object className (field :: fields) =>
    className ++ " \x7b " ++ displayField field ++ displayFields fields ++ " \x7d"

def displayField : String × Value → String
  | (name, v) => name ++ ": " ++ display v

def displayFields : List (String × Value) → String
  | [] => ""
  | field :: fields => ", " ++ displayField field ++ displayFields fields

end

end Value
end ScriptConsole
