import ClassFormat.Yaml.Entry
import ClassFormat.Yaml.Node
import ClassFormat.Yaml.Resolution

namespace ClassFormat.Yaml

/-- A node whose mappings are merged. -/
inductive Tree where
  | plain (text : Text)
  | quoted (text : CodeText)
  | sequence (items : List Tree)
  | mapping (merged own : List (Tree × Tree))
  /-- A mapping that merges something else than mappings, or merges twice. -/
  | unmergeable

namespace Tree

def isMergeKey : Node → Bool
  | .plain text => text = "<<".toList
  | _ => false

def entries? : Tree → Option (List (Tree × Tree))
  | mapping merged own => some (merged ++ own)
  | _ => none

/-- The entries that the value of a merge key brings in. Of several mappings the last one comes
first, so that the first one wins. -/
def mergedEntries? : Tree → Option (List (Tree × Tree))
  | sequence items => (items.reverse.mapM entries?).map List.flatten
  | t => t.entries?

/-- A tree as a key: a lone equals sign is a text there. -/
def asKey : Tree → Tree
  | plain ['='] => quoted ['='.toNat]
  | t => t

mutual

/-- Merges the mappings of a node. The key `<<` brings the entries of other mappings into its own;
they come before its own entries, which win over them. -/
def ofNode : Node → Tree
  | .plain text => plain text
  | .quoted text => quoted text
  | .sequence items => sequence (ofItems items)
  | .mapping entries => ofEntries [] [] entries

def ofItems : List Node → List Tree
  | [] => []
  | node :: nodes => ofNode node :: ofItems nodes

/-- Merges mappings into one, behind its entries that are known. -/
def ofEntries (merged own : List (Tree × Tree)) : List (Node × Node) → Tree
  | [] => mapping merged own
  | (k, v) :: rest =>
    let value := ofNode v
    if isMergeKey k then
      match merged, value.mergedEntries? with
      | [], some more => ofEntries more own rest
      | _, _ => unmergeable
    else ofEntries merged (own ++ [((ofNode k).asKey, value)]) rest

end

/-- Collections may be nested this deeply in a key. -/
def maxKeyDepth : Nat := 195

mutual

/-- The value of a tree, built as a whole, in which collections may be nested `room` deep. -/
def value (room : Nat) : Tree → Except Error Value
  | plain text => Plain.value text
  | quoted text => .ok (.text text)
  | sequence items =>
    match room with
    | 0 => .error (.fault .tooDeep)
    | room + 1 => do return .list (← itemValues room items)
  | mapping merged own =>
    match room with
    | 0 => .error (.fault .tooDeep)
    | room + 1 => do
      let known ← entryValues room (!merged.isEmpty) [] merged
      return .mapping (← entryValues room (!merged.isEmpty) known own)
  | unmergeable => .error (if room = 0 then .fault .tooDeep else .invalid)

def itemValues (room : Nat) : List Tree → Except Error (List Value)
  | [] => .ok []
  | t :: ts => do
    let v ← t.value room
    return v :: (← itemValues room ts)

/-- The values of entries, behind those that are known. -/
def entryValues (room : Nat) (merged : Bool) (known : List (Value × Value)) :
    List (Tree × Tree) → Except Error (List (Value × Value))
  | [] => .ok known
  | (k, v) :: rest => do
    let key ← k.value (min room maxKeyDepth)
    Key.check key
    let value ← v.value room
    entryValues room merged (← Entry.join merged known key value) rest

end

/-- The value of a tree before anything is put into a collection. -/
def outline : Tree → Except Error Value
  | plain text => Plain.value text
  | quoted text => .ok (.text text)
  | sequence _ => .ok (.list [])
  | mapping _ _ => .ok (.mapping [])
  | unmergeable => .ok (.mapping [])

/-- Lets entries join those that are known, with nothing in the collections among their values. -/
def joinOutlines (merged : Bool) (known : List (Value × Value)) (entries : List (Tree × Tree)) :
    Except Error (List (Value × Value)) :=
  entries.foldlM (fun known (k, v) => do
    let key ← k.value maxKeyDepth
    Key.check key
    let value ← v.outline
    Entry.join merged known key value) known

/-- Checks what stands directly in a collection. -/
def check : Tree → Except Error Unit
  | sequence items => items.forM fun t => discard t.outline
  | mapping merged own => discard (joinOutlines (!merged.isEmpty) [] (merged ++ own))
  | unmergeable => .error .invalid
  | t => discard t.outline

def joinLevels {α : Type} : List (List α) → List (List α) → List (List α)
  | [], bs => bs
  | as, [] => as
  | a :: as, b :: bs => (a ++ b) :: joinLevels as bs

mutual

/-- The tree and all values inside it, level by level. -/
def levels : Tree → List (List Tree)
  | sequence items => [sequence items] :: itemLevels items
  | mapping merged own =>
    [mapping merged own] :: joinLevels (entryLevels merged) (entryLevels own)
  | t => [[t]]

def itemLevels : List Tree → List (List Tree)
  | [] => []
  | t :: ts => joinLevels t.levels (itemLevels ts)

def entryLevels : List (Tree × Tree) → List (List Tree)
  | [] => []
  | (_, v) :: rest => joinLevels v.levels (entryLevels rest)

end

/-- The value of a tree. Of several errors the one counts that is found first level by level: all
that stands directly in a collection comes before what is deeper in it. -/
def load (t : Tree) : Except Error Value := do
  t.levels.flatten.forM check
  t.value Node.maxDepth

end Tree

/-- The value of a YAML text with one document. Anchors, references, tags, block scalars and
directives are not read: a text in which one of them stands is invalid here. -/
def load (t : Text) : Except Error Value := do
  let node ← Node.ofTokens (Token.scan t)
  (Tree.ofNode node).load

end ClassFormat.Yaml
