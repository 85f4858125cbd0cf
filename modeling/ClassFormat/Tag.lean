import ClassFormat.Basic
import ClassFormat.Text.Word

namespace ClassFormat

/-- An opening tag with a class attribute, cut into its parts. The closing quote is not kept, it may
differ from the opening one. -/
structure Tag where
  name : Text
  before : Text
  attributeName : Text
  quote : Text
  value : Text
  after : Text
  deriving DecidableEq, Repr

structure LocatedTag extends Tag where
  start : Nat
  deriving DecidableEq, Repr

namespace Tag

/-- Either kind of quote may open or close a value. -/
def isQuote (c : Char) : Bool := c == '"' || c == '\''

def length (tag : Tag) : Nat :=
  tag.name.length + tag.before.length + tag.attributeName.length + tag.quote.length +
    tag.value.length + tag.after.length + 4

/-- Takes a word off the front of a text. -/
def dropWord? (word : Text) (t : Text) : Option Text :=
  if word.isPrefixOf t then some (t.drop word.length) else none

/-- The two names of a class attribute, the longer one first. -/
def classAttributes : List Text := ["className".toList, "class".toList]

/-- Reads a quoted value and the text after it up to the end of the tag. -/
def readValue? (attributeName : Text) : Text → Option Tag
  | [] => none
  | q :: cs =>
    if isQuote q then
      match cs.takeWhile (!isQuote ·), cs.dropWhile (!isQuote ·) with
      | v :: vs, _ :: rest =>
        if rest.contains '>' then
          some { name := [], before := [], attributeName, quote := [q], value := v :: vs,
                 after := rest.takeWhile (· ≠ '>') }
        else none
      | _, _ => none
    else none

def readAttribute? (t : Text) : Option Tag :=
  classAttributes.findSome? fun attributeName =>
    match dropWord? attributeName t with
    | some ('=' :: cs) => readValue? attributeName cs
    | _ => none

/-- Reads a tag from behind its name on; the text before the attribute is as short as possible. -/
def readBefore? : Text → Option Tag
  | [] => none
  | c :: cs =>
    match readAttribute? (c :: cs) with
    | some tag => some tag
    | none =>
      if c = '>' then none
      else (readBefore? cs).map fun tag => { tag with before := c :: tag.before }

/-- Reads a tag from its name on; the name is as long as possible. -/
def readName? : Text → Option Tag
  | [] => none
  | c :: cs =>
    if isWordChar c then
      ((readName? cs).or (readBefore? cs)).map fun tag => { tag with name := c :: tag.name }
    else none

/-- Reads the tag at the front of a text. Its form is `<name before attribute="value" after>`. -/
def read? : Text → Option Tag
  | '<' :: cs => readName? cs
  | _ => none

/-- Finds the tags of a text that starts at `offset`, after `skip` more characters. -/
def scanFrom (offset skip : Nat) : Text → List LocatedTag
  | [] => []
  | c :: cs =>
    match skip with
    | k + 1 => scanFrom (offset + 1) k cs
    | 0 =>
      match read? (c :: cs) with
      | some tag => { tag with start := offset } :: scanFrom (offset + 1) (tag.length - 1) cs
      | none => scanFrom (offset + 1) 0 cs

/-- The tags of a text with a class attribute, from left to right; no two of them overlap. -/
def scan (t : Text) : List LocatedTag := scanFrom 0 0 t

/-- Writes a tag with one attribute a line around a new class value. -/
def rebuild (tag : Tag) (value baseIndent attributeIndent newline : Text) : Text :=
  let attributeLine (t : Text) : List Text :=
    match t.trim with
    | [] => []
    | t => [attributeIndent ++ t]
  newline.intercalate
    ([('<' :: tag.name)] ++ attributeLine tag.before ++
      [attributeIndent ++ tag.attributeName ++ '=' :: tag.quote ++ value ++ tag.quote] ++
      attributeLine tag.after ++ [baseIndent ++ ['>']])

end Tag

def LocatedTag.stop (tag : LocatedTag) : Nat := tag.start + tag.length

end ClassFormat
