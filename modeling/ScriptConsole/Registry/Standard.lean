import ScriptConsole.Registry.Basic
import ScriptConsole.Text.Blank
import ScriptConsole.Text.LetterCase
import ScriptConsole.Text.Occurrence

namespace ScriptConsole.Standard

def onString (run : String → List Value → Except EvalError Value) : Native := fun this args =>
  match this.string? with
  | some text => run text args
  | none => .error (.thrown "receiver is not a string")

def onInteger (run : Int64 → List Value → Except EvalError Value) : Native := fun this args =>
  match this.integer? with
  | some n => run n args
  | none => .error (.thrown "receiver is not a number")

def onBoolean (run : Bool → List Value → Except EvalError Value) : Native
  | .boolean b, args => run b args
  | _, _ => .error (.thrown "receiver is not a boolean")

def stringArg (args : List Value) (i : Nat) : Except EvalError String :=
  match args[i]?.bind Value.string? with
  | some text => .ok text
  | none => .error (.thrown s!"argument {i} must be a string")

def integerArg (args : List Value) (i : Nat) : Except EvalError Int64 :=
  match args[i]?.bind Value.integer? with
  | some n => .ok n
  | none => .error (.thrown s!"argument {i} must be a number")

/-- Whether the first argument equals the receiver. -/
def equals : Native := fun this args => .ok (.boolean (args.head?.any (·.same this)))

/-- The bytes of a text in UTF-8. -/
def utf8 (text : String) : List UInt8 := text.toList.flatMap String.utf8EncodeChar

/-- A polynomial hash of the bytes that display a value, modulo `2 ^ 64`. -/
def hash (v : Value) : Int64 :=
  (utf8 v.display).foldl (fun h b => h * 31 + Int64.ofNat b.toNat) 0

def hashCode : Native := fun this _ => .ok (.integer (hash this))

def asText : Native := fun this _ => .ok (.string this.display)

def length : Native := onString fun text _ => .ok (.integer (Int64.ofNat text.toList.length))

def isEmpty : Native := onString fun text _ => .ok (.boolean text.isEmpty)

/-- The characters of `text` from `start` up to, and without, `stop`. -/
def slice (text : String) (start stop : Int64) : Except EvalError Value :=
  let cs := text.toList
  let length := Int64.ofNat cs.length
  if start < 0 ∨ length < stop ∨ stop < start then
    .error (.thrown s!"string index out of range: {start}..{stop} of {length}")
  else
    let count := stop - start
    .ok (.string (String.ofList ((cs.drop start.toUInt64.toNat).take count.toUInt64.toNat)))

def substringFrom : Native := onString fun text args => do
  let start ← integerArg args 0
  slice text start (Int64.ofNat text.toList.length)

def substringBetween : Native := onString fun text args => do
  let start ← integerArg args 0
  let stop ← integerArg args 1
  slice text start stop

def upperCase : Native := onString fun text _ => .ok (.string (toUpperCase text))

def lowerCase : Native := onString fun text _ => .ok (.string (toLowerCase text))

def trimmed : Native := onString fun text _ => .ok (.string (trim text))

def startsWith : Native := onString fun text args => do
  let start ← stringArg args 0
  pure (.boolean (start.toList.isPrefixOf text.toList))

def endsWith : Native := onString fun text args => do
  let ending ← stringArg args 0
  pure (.boolean (ending.toList.isSuffixOf text.toList))

def concat : Native := onString fun text args => do
  let other ← stringArg args 0
  pure (.string (text ++ other))

/-- How many characters precede the first occurrence of `needle`, or `-1`. -/
def position (text needle : String) : Int64 :=
  match indexOf? needle.toList text.toList with
  | some i => Int64.ofNat i
  | none => -1

def indexOf : Native := onString fun text args => do
  let needle ← stringArg args 0
  pure (.integer (position text needle))

def replace : Native := onString fun text args => do
  let old ← stringArg args 0
  let new ← stringArg args 1
  pure (.string (String.ofList (replaceAll old.toList new.toList text.toList)))

def longValue : Native := onInteger fun n _ => .ok (.integer n)

/-- `-1`, `0` or `1`, as `a` is less than, equal to or greater than `b`. -/
def order (a b : Int64) : Int64 := if a < b then -1 else if a = b then 0 else 1

def compareTo : Native := onInteger fun n args => do
  let other ← integerArg args 0
  pure (.integer (order n other))

def booleanValue : Native := onBoolean fun b _ => .ok (.boolean b)

/-- An instance method with a fixed number of arguments. -/
def method (name returnType : String) (count : Nat) (run : Native) : Method :=
  { name, returnType, arity := .exact count, native := some run }

def object : ClassDecl where
  name := TypeName.object
  methods := [
    method "equals" TypeName.boolean 1 equals,
    { name := "getClass", returnType := "java.lang.Class" },
    method "hashCode" TypeName.long 0 hashCode,
    method "toString" TypeName.string 0 asText]

def string : ClassDecl where
  name := TypeName.string
  methods := [
    method "length" TypeName.long 0 length,
    method "isEmpty" TypeName.boolean 0 isEmpty,
    method "substring" TypeName.string 1 substringFrom,
    method "substring" TypeName.string 2 substringBetween,
    method "toUpperCase" TypeName.string 0 upperCase,
    method "toLowerCase" TypeName.string 0 lowerCase,
    method "trim" TypeName.string 0 trimmed,
    method "startsWith" TypeName.boolean 1 startsWith,
    method "endsWith" TypeName.boolean 1 endsWith,
    method "concat" TypeName.string 1 concat,
    method "indexOf" TypeName.long 1 indexOf,
    method "replace" TypeName.string 2 replace]

def long : ClassDecl where
  name := TypeName.long
  methods := [
    method "longValue" TypeName.long 0 longValue,
    method "compareTo" TypeName.long 1 compareTo]

def boolean : ClassDecl where
  name := TypeName.boolean
  methods := [method "booleanValue" TypeName.boolean 0 booleanValue]

end Standard

/-- The registry of the standard classes alone. -/
def Registry.standard : Registry :=
  (((Registry.empty.addClass Standard.object).addClass Standard.string).addClass
    Standard.long).addClass Standard.boolean

end ScriptConsole
