import ScriptConsole.Chain.Split
import ScriptConsole.Completion.Item
import ScriptConsole.Resolution.Chain

namespace ScriptConsole

/-- Completion items, and the sources that the evaluator was asked for. -/
structure Completion where
  items : List CompletionItem
  asked : List String

/-- The items of the members whose names begin with `stem`, by label. -/
def candidates (members : MemberSet) (stem : String) : List CompletionItem :=
  let matching := members.members.filter fun m => stem.toList.isPrefixOf m.name.toList
  (matching.map CompletionItem.ofMember).mergeSort fun a b => a.label ≤ b.label

/-- The first `limit` items, or all of them. -/
def CompletionConfig.cap (config : CompletionConfig) (items : List CompletionItem) :
    List CompletionItem :=
  match config.limit with
  | none => items
  | some n => items.take n

/-- The part of `input` in front of the cursor, a byte offset.  A character that the cursor cuts is
left out. -/
def lineAt (input : String) (cursor : Nat) : String :=
  String.ofList (takeBytes cursor input.toList)

namespace Environment
variable (env : Environment) (config : CompletionConfig)

/-- The items of a whole line; none when it cannot be split. -/
def completeLine (line : String) : Completion :=
  match splitChain line with
  | .error _ => ⟨[], []⟩
  | .ok chain =>
    let found := env.resolve chain
    let members := found.reference.members env.scope env.catalog
    ⟨config.cap (candidates members chain.stem), found.asked⟩

def completion (input : String) (cursor : Nat) : Completion :=
  env.completeLine config (lineAt input cursor)

def items (input : String) (cursor : Nat) : List CompletionItem :=
  (env.completion config input cursor).items

/-- Appends the texts of the items to `out`, and says how many there are. -/
def complete (input : String) (cursor : Nat) (out : List String) : Nat × List String :=
  let found := env.items config input cursor
  (found.length, out ++ found.map (CompletionItem.render config.callMarker))

end Environment
end ScriptConsole
