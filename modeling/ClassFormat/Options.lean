import ClassFormat.Value

namespace ClassFormat

/-- The indentation of the further lines of a category; a style of any other name acts like
`same`. -/
inductive WrapStyle where
  | same
  | extra
  | other (name : Text)
  deriving DecidableEq, Repr

namespace WrapStyle

def name : WrapStyle → Text
  | same => "same".toList
  | extra => "extra".toList
  | other n => n

/-- The two styles that may be chosen. -/
def choices : List WrapStyle := [same, extra]

/-- The style of a name, if it may be chosen. -/
def ofName? (n : Text) : Option WrapStyle := choices.find? fun s => s.name = n

def ofName (n : Text) : WrapStyle := (ofName? n).getD (other n)

end WrapStyle

/-- How a class attribute is laid out. -/
structure Options where
  /-- Puts the closing quote on a line of its own. -/
  closeQuoteOnNewLine : Bool := true
  /-- The length that a line should not exceed; 0 gives every cluster its own line. -/
  maxLineWidth : Int := 80
  /-- The indentation of the further lines of a category. -/
  wrapStyle : WrapStyle := .same
  deriving DecidableEq, Repr

/-- The options that a configuration can set. -/
inductive OptionKey where
  | closeQuoteOnNewLine
  | maxLineWidth
  | wrapStyle
  deriving DecidableEq, Repr

namespace OptionKey

def name : OptionKey → Text
  | closeQuoteOnNewLine => "close_quote_on_new_line".toList
  | maxLineWidth => "max_line_width".toList
  | wrapStyle => "wrap_indent_style".toList

/-- All keys in ascending order, which is the order in which their values are checked. -/
def all : List OptionKey := [closeQuoteOnNewLine, maxLineWidth, wrapStyle]

end OptionKey

inductive OptionsError where
  | unknownKeys (smallest : CodeText) (others : List CodeText)
  | noValue (key : OptionKey)
  | notBoolean (got : Value)
  | notInteger (got : Value)
  | negative (got : Int)
  | notStyle (got : Value)
  deriving Repr

namespace OptionsError

/-- The code points of the key at fault. -/
def keyCodes : OptionsError → CodeText
  | unknownKeys smallest _ => smallest
  | noValue key => key.name.codes
  | notBoolean _ => OptionKey.closeQuoteOnNewLine.name.codes
  | notInteger _ => OptionKey.maxLineWidth.name.codes
  | negative _ => OptionKey.maxLineWidth.name.codes
  | notStyle _ => OptionKey.wrapStyle.name.codes

/-- The key at fault as it is written out; a surrogate and its escape look alike then. -/
def key (e : OptionsError) : Text := e.keyCodes.written

/-- Whether an error can be put in words: a value at fault has to be written out. -/
def isWritable : OptionsError → Bool
  | notBoolean got => got.isWritable
  | notInteger got => got.isWritable
  | negative got => (Value.int got).isWritable
  | notStyle got => got.isWritable
  | _ => true

/-- What is wrong, in words. -/
def message (e : OptionsError) : Text :=
  match e with
  | unknownKeys smallest others =>
    "Unknown configuration key(s): ".toList ++
      Value.commaSeparated ((smallest :: others).map CodeText.written)
  | noValue _ => e.key ++ " must have a value".toList
  | notBoolean got => e.key ++ " must be true or false, got ".toList ++ got.render
  | notInteger got => e.key ++ " must be an integer, got ".toList ++ got.render
  | negative got =>
    e.key ++ " must be >= 0 (0 disables wrapping), got ".toList ++ Value.intText got
  | notStyle got =>
    e.key ++ " must be one of: ".toList ++
      Value.commaSeparated (WrapStyle.choices.map WrapStyle.name) ++ "; got ".toList ++ got.render

end OptionsError

/-- Values to use in place of current options; null means that none is given. -/
structure Overrides where
  closeQuoteOnNewLine : Value := .null
  maxLineWidth : Value := .null
  wrapStyle : Value := .null
  deriving Repr

namespace Overrides

/-- Only a boolean says where the closing quote goes. -/
def checkFlag : Value → Except OptionsError Bool
  | .bool b => .ok b
  | v => .error (.notBoolean v)

/-- Only an integer that is not negative is a width. -/
def checkWidth : Value → Except OptionsError Int
  | .int n => if n < 0 then .error (.negative n) else .ok n
  | v => .error (.notInteger v)

def checkStyle (v : Value) : Except OptionsError WrapStyle :=
  match v.text?.bind WrapStyle.ofName? with
  | some s => .ok s
  | none => .error (.notStyle v)

/-- The checked value if one is given, and the current one otherwise. -/
def choose {α : Type} (check : Value → Except OptionsError α) (current : α) :
    Value → Except OptionsError α
  | .null => .ok current
  | v => check v

def isEmpty (o : Overrides) : Bool :=
  o.closeQuoteOnNewLine.isNull && o.maxLineWidth.isNull && o.wrapStyle.isNull

def apply (o : Overrides) (options : Options) : Except OptionsError Options := do
  let closeQuoteOnNewLine ← choose checkFlag options.closeQuoteOnNewLine o.closeQuoteOnNewLine
  let maxLineWidth ← choose checkWidth options.maxLineWidth o.maxLineWidth
  let wrapStyle ← choose checkStyle options.wrapStyle o.wrapStyle
  return { closeQuoteOnNewLine, maxLineWidth, wrapStyle }

end Overrides

/-- Why a mapping does not give options: some key is not a text, or the entries are at fault. -/
inductive MappingError where
  | keyNotText
  | options (e : OptionsError)
  deriving Repr

namespace Options

def lookup? (entries : List (Value × Value)) (key : OptionKey) : Option Value :=
  (entries.find? fun e => e.1.text? = some key.name).map Prod.snd

/-- The keys that name no option, in ascending order. -/
def unknownKeys (keys : List CodeText) : List CodeText :=
  sortBy (fun s t => !decide (t < s))
    (keys.filter fun k => !(OptionKey.all.map fun o => o.name.codes).contains k)

def overridesOf (entries : List (Value × Value)) : Overrides :=
  { closeQuoteOnNewLine := (lookup? entries .closeQuoteOnNewLine).getD .null
    maxLineWidth := (lookup? entries .maxLineWidth).getD .null
    wrapStyle := (lookup? entries .wrapStyle).getD .null }

/-- The options that a mapping gives; those without a key keep their defaults. -/
def ofMapping (entries : List (Value × Value)) : Except MappingError Options :=
  match entries.mapM fun e => e.1.codes? with
  | none => .error .keyNotText
  | some keys =>
    match unknownKeys keys with
    | smallest :: others => .error (.options (.unknownKeys smallest others))
    | [] =>
      match OptionKey.all.find? fun k => (lookup? entries k).any Value.isNull with
      | some k => .error (.options (.noValue k))
      | none => ((overridesOf entries).apply {}).mapError .options

end Options

end ClassFormat
