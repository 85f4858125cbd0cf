import ClassFormat.Value
import ClassFormat.Yaml.Basic

namespace ClassFormat.Yaml

namespace Key

/-- Truth values and numbers that are whole count as integers among keys. -/
def form : Value → Value
  | .bool b => .int (if b then 1 else 0)
  | .float x =>
    match x.toInt? with
    | some n => .int n
    | none => .float x
  | v => v

def sameScalar (a b : Value) : Bool :=
  match form a, form b with
  | .null, .null => true
  | .int m, .int n => m == n
  | .float x, .float y => x == y
  | .text s, .text t => s == t
  | .date d, .date e => d == e
  | .moment m, .moment n => m.same n
  | _, _ => false

def same : Value → Value → Bool
  | .list as, .list bs => as.length == bs.length && (as.zip bs).all fun (a, b) => sameScalar a b
  | a, b => sameScalar a b

def isCollection : Value → Bool
  | .list _ => true
  | .mapping _ => true
  | _ => false

/-- A mapping is no key at all. -/
def check : Value → Except Error Unit
  | .mapping _ => .error .invalid
  | _ => .ok ()

/-- Whether a value can be looked up as a key: a sequence of collections cannot. -/
def isFlat : Value → Bool
  | .list items => !items.any isCollection
  | _ => true

end Key

namespace Entry

/-- Puts a value in place of the one of a key, or adds the entry. -/
def put (entries : List (Value × Value)) (k v : Value) : List (Value × Value) :=
  if entries.any fun e => Key.same e.1 k then
    entries.map fun e => if Key.same e.1 k then (e.1, v) else e
  else entries ++ [(k, v)]

/-- Adds an entry whose key is not known; the error about a known one shows both entries. -/
def add (entries : List (Value × Value)) (k v : Value) : Except Error (List (Value × Value)) :=
  match entries.find? fun e => Key.same e.1 k with
  | none => .ok (entries ++ [(k, v)])
  | some (_, known) =>
    if k.isWritable && v.isWritable && known.isWritable then .error .invalid
    else .error (.fault .unwritable)

/-- Lets an entry join those that are known. Where mappings were merged, a later entry wins;
otherwise each key comes once. -/
def join (merged : Bool) (entries : List (Value × Value)) (k v : Value) :
    Except Error (List (Value × Value)) :=
  if !Key.isFlat k then .error (.fault .nestedKey)
  else if merged then .ok (put entries k v)
  else add entries k v

end Entry

end ClassFormat.Yaml
