import ClassFormat.Packing
import ClassFormat.Tag
import ClassFormat.Text.Line

namespace ClassFormat

/-- Replaces the range from `start` up to `stop` by `newText`. -/
structure Edit where
  start : Int
  stop : Int
  newText : Text
  deriving DecidableEq, Repr

namespace Edit

def apply (edit : Edit) (t : Text) : Text := t.splice edit.start edit.stop edit.newText

/-- Sorts edits by start, the largest first; edits with one start keep their order. -/
def sortByStart (edits : List Edit) : List Edit := sortBy (fun a b => b.start ≤ a.start) edits

/-- Carries out all edits, the one with the largest start first. -/
def applyAll (edits : List Edit) (t : Text) : Text :=
  (sortByStart edits).foldl (fun t edit => edit.apply t) t

end Edit

/-- A tag that has to change and what it becomes. -/
structure Replacement where
  tag : LocatedTag
  newText : Text
  deriving DecidableEq, Repr

def Replacement.edit (r : Replacement) : Edit := ⟨r.tag.start, r.tag.stop, r.newText⟩

namespace Document

/-- Attributes stand two spaces deeper than the line their tag starts on. -/
def attributeIndent (baseIndent : Text) : Text := baseIndent ++ [' ', ' ']

/-- The value that a class attribute should have whose tag starts on a line with the given
indentation. -/
def packedValue (options : Options) (newline : Newline) (baseIndent value : Text) : Text :=
  (pack options (attributeIndent baseIndent) value).withNewline newline

/-- The replacement of a tag, unless it has the right value. -/
def replacement? (options : Options) (newline : Newline) (t : Text) (tag : LocatedTag) :
    Option Replacement :=
  let baseIndent := t.lineIndent tag.start
  let value := packedValue options newline baseIndent tag.value
  if value = tag.value then none
  else some ⟨tag, tag.rebuild value baseIndent (attributeIndent baseIndent) newline.text⟩

/-- The replacements that format a document, from left to right. -/
def replacements (options : Options) (t : Text) : List Replacement :=
  (Tag.scan t).filterMap (replacement? options t.dominantNewline t)

/-- The edits that format a document, from left to right. -/
def edits (options : Options) (t : Text) : List Edit :=
  (replacements options t).map Replacement.edit

/-- The formatted document. -/
def format (options : Options) (t : Text) : Text := Edit.applyAll (edits options t) t

end Document

end ClassFormat
