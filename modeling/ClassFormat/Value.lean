import ClassFormat.Calendar
import ClassFormat.Decimal.Numeral
import ClassFormat.Decimal.Shortest
import ClassFormat.Text.Quoted

namespace ClassFormat

/-- A value of a configuration. -/
inductive Value where
  | null
  | bool (b : Bool)
  | int (n : Int)
  | float (x : Binary64)
  | text (t : CodeText)
  | date (d : Date)
  | moment (m : Moment)
  | list (items : List Value)
  | mapping (entries : List (Value × Value))
  deriving Inhabited, Repr

namespace Value

def ofText (t : Text) : Value := text t.codes

/-- Numbers with a leading exponent from -4 to 15 are written positionally, others with an exponent
of at least two digits. -/
def floatLayout : Decimal.Layout := ⟨-4, 15, 2⟩

/-- A floating point number as messages show it: the shortest digits that read back. -/
def floatText : Binary64 → Text
  | .nan => "nan".toList
  | .infinite negative => (if negative then ['-'] else []) ++ "inf".toList
  | .finite negative m e =>
    (if negative then ['-'] else []) ++
      (if m = 0 then "0.0".toList else (Decimal.shortest m e).write floatLayout)

def intText (n : Int) : Text := (if n < 0 then ['-'] else []) ++ Nat.toDigits 10 n.natAbs

def commaSeparated (items : List Text) : Text := [',', ' '].intercalate items

def callText (name : String) (arguments : List Text) : Text :=
  name.toList ++ '(' :: commaSeparated arguments ++ [')']

def dateText (d : Date) : Text :=
  callText "datetime.date" ([d.year, d.month, d.day].map (Nat.toDigits 10))

/-- A length of time of less than a day in either direction as messages show it. The seconds are
counted from the start of a day. -/
def durationText (seconds : Int) : Text :=
  let days := if seconds < 0 then ["days=-1".toList] else []
  let rest := if seconds = 0 then ["0".toList] else ["seconds=".toList ++ intText (seconds % 86400)]
  callText "datetime.timedelta" (days ++ rest)

def offsetText (o : Offset) : Text :=
  "tzinfo=".toList ++ callText "datetime.timezone" [durationText o.seconds, o.name.quoted]

/-- A moment as messages show it: seconds and microseconds are left out where nothing but zeros
would follow the minutes. -/
def momentText (m : Moment) : Text :=
  let fine := if m.microsecond ≠ 0 then [m.second, m.microsecond]
    else if m.second ≠ 0 then [m.second] else []
  let numbers := [m.date.year, m.date.month, m.date.day, m.hour, m.minute] ++ fine
  callText "datetime.datetime"
    (numbers.map (Nat.toDigits 10) ++ (m.offset.map offsetText).toList)

mutual

def render : Value → Text
  | null => "None".toList
  | bool true => "True".toList
  | bool false => "False".toList
  | int n => intText n
  | float x => floatText x
  | text t => t.quoted
  | date d => dateText d
  | moment m => momentText m
  | list items => '[' :: commaSeparated (renderItems items) ++ [']']
  | mapping entries => '{' :: commaSeparated (renderEntries entries) ++ ['}']

/-- A key as messages show it: a sequence stands in parentheses. -/
def renderKey : Value → Text
  | list [item] => '(' :: item.render ++ [',', ')']
  | list items => '(' :: commaSeparated (renderItems items) ++ [')']
  | v => v.render

def renderItems : List Value → List Text
  | [] => []
  | v :: vs => v.render :: renderItems vs

def renderEntries : List (Value × Value) → List Text
  | [] => []
  | (k, v) :: rest => (k.renderKey ++ ':' :: ' ' :: v.render) :: renderEntries rest

end

mutual

/-- Whether a value can be written out: it holds no integer with too many digits. How deeply its
collections are nested is not limited here. -/
def isWritable : Value → Bool
  | int n => n.natAbs < 10 ^ Numeral.maxDigits
  | list items => areWritable items
  | mapping entries => entriesWritable entries
  | _ => true

def areWritable : List Value → Bool
  | [] => true
  | v :: vs => v.isWritable && areWritable vs

def entriesWritable : List (Value × Value) → Bool
  | [] => true
  | (k, v) :: rest => k.isWritable && v.isWritable && entriesWritable rest

end

/-- Empty and zero values count as nothing. -/
def isFalsy : Value → Bool
  | null => true
  | bool b => !b
  | int n => n == 0
  | float x => x.isZero
  | text t => t.isEmpty
  | list items => items.isEmpty
  | mapping entries => entries.isEmpty
  | date _ => false
  | moment _ => false

def codes? : Value → Option CodeText
  | text t => some t
  | _ => none

def text? (v : Value) : Option Text := v.codes?.bind CodeText.text?

def isNull : Value → Bool
  | null => true
  | _ => false

end Value

end ClassFormat
