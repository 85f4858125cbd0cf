import ClassFormat.Document
import ClassFormat.Options

namespace ClassFormat

/-- A document and the options it is formatted with. -/
structure Session where
  text : Text
  options : Options := {}
  deriving Repr

namespace Session

inductive Step where
  | format
  | edits
  | tags
  | configure (overrides : Overrides)
  | reset (mapping : List (Value × Value))
  | apply (edits : List Edit)
  | formatOnly (indexes : List Nat)

inductive Reply where
  | formatted (text : Text) (changed : Bool)
  | text (text : Text)
  | edits (edits : List Edit)
  | tags (tags : List LocatedTag)
  | options (options : Options)
  | failed (error : MappingError)

/-- Takes new options, unless there are none. -/
def setOptions (s : Session) : Except MappingError Options → Session × Reply
  | .ok options => ({ s with options }, .options options)
  | .error e => (s, .failed e)

def setText (s : Session) (text : Text) : Session × Reply := ({ s with text }, .text text)

/-- The session after a step, and the answer. -/
def step (s : Session) : Step → Session × Reply
  | .format =>
    let text := Document.format s.options s.text
    ({ s with text }, .formatted text (text != s.text))
  | .edits => (s, .edits (Document.edits s.options s.text))
  | .tags => (s, .tags (Tag.scan s.text))
  | .configure overrides => s.setOptions ((overrides.apply s.options).mapError .options)
  | .reset mapping => s.setOptions (Options.ofMapping mapping)
  | .apply edits => s.setText (Edit.applyAll edits s.text)
  | .formatOnly indexes =>
    let edits := Document.edits s.options s.text
    s.setText (Edit.applyAll (indexes.filterMap fun i => edits[i]?) s.text)

def run (s : Session) : List Step → List Reply
  | [] => []
  | step :: steps =>
    let (next, reply) := s.step step
    reply :: next.run steps

end Session

end ClassFormat
