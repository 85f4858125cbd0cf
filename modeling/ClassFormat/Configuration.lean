import ClassFormat.Files.Tree
import ClassFormat.Options
import ClassFormat.Text.Line
import ClassFormat.Yaml.Tree

namespace ClassFormat.Configuration

/-- The file that is read if none is named. -/
def defaultFile : Text := ".twformat.yaml".toList

/-- Why a configuration file gives no options. -/
inductive Error where
  | invalidYaml (path : Text)
  | notMapping (path : Text)
  | options (e : OptionsError)
  | keyNotText
  | yaml (fault : Yaml.Fault)
  | nameTooLong
  | notText (fault : Utf8.Fault)
  deriving Repr

namespace Error

/-- What is wrong, in words, where the fault is one of the configuration itself and can be put in
words. -/
def message? : Error → Option Text
  | invalidYaml path => some ("Invalid YAML in ".toList ++ path)
  | notMapping path => some ("YAML must be a mapping: ".toList ++ path)
  | options e => if e.isWritable then some e.message else none
  | _ => none

def key? : Error → Option Text
  | options e => some e.key
  | _ => none

def ofMapping : MappingError → Error
  | .keyNotText => keyNotText
  | .options e => options e

def ofYaml (path : Text) : Yaml.Error → Error
  | .invalid => invalidYaml path
  | .fault f => yaml f

end Error

/-- The options that a document gives; an empty value counts as an empty mapping. -/
def ofValue (path : Text) (v : Value) : Except Error Options :=
  match if v.isFalsy then .mapping [] else v with
  | .mapping entries => (Options.ofMapping entries).mapError .ofMapping
  | _ => .error (.notMapping path)

def ofContent (yaml : Text → Except Yaml.Error Value) (path : Text) (content : Bytes) :
    Except Error Options := do
  let t ← (Utf8.decode content).mapError .notText
  let v ← (yaml t.unifyNewlines).mapError (.ofYaml path)
  ofValue path v

/-- The options of the file that a path leads to, or the defaults if there is none. For a name that
is too long it cannot be said whether there is one. -/
def read (yaml : Text → Except Yaml.Error Value) (tree : FileTree) (path : Text) :
    Except Error Options :=
  let shown := Path.normalize path
  match tree.find shown with
  | .error .tooLong => .error .nameTooLong
  | .error _ => .ok {}
  | .ok place =>
    match tree.contentAt? place with
    | some content => ofContent yaml shown content
    | none => .ok {}

def load (tree : FileTree) (path : Text) : Except Error Options := read Yaml.load tree path

end ClassFormat.Configuration
