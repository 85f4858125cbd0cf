import ClassFormat.Yaml.Timestamp

namespace ClassFormat.Yaml.Plain

def nulls : List Text := ["", "~", "null", "Null", "NULL"].map String.toList

def booleans : List (Text × Bool) :=
  [("true", true), ("True", true), ("TRUE", true), ("false", false), ("False", false),
    ("FALSE", false)].map fun (s, b) => (s.toList, b)

def isFigure (c : Char) : Bool := c.isDigit || c == '_'

def isExponent (signRequired : Bool) : Text → Bool
  | [] => false
  | c :: cs =>
    (c == 'e' || c == 'E') &&
      match cs with
      | '+' :: ds => !ds.isEmpty && ds.all Char.isDigit
      | '-' :: ds => !ds.isEmpty && ds.all Char.isDigit
      | ds => !signRequired && !ds.isEmpty && ds.all Char.isDigit

def isFloat (t : Text) : Bool :=
  let body := (Numeral.dropSign t).2
  [".nan", ".NaN", ".NAN"].any (fun s => s.toList = t) ||
    [".inf", ".Inf", ".INF"].any (fun s => s.toList = body) ||
    match body with
    | '.' :: cs =>
      let rest := cs.dropWhile isFigure
      !(cs.takeWhile isFigure).isEmpty && (rest.isEmpty || isExponent true rest)
    | c :: cs =>
      c.isDigit &&
        match cs.dropWhile isFigure with
        | '.' :: ds =>
          let rest := ds.dropWhile isFigure
          rest.isEmpty || isExponent false rest
        | rest => isExponent false rest
    | [] => false

def dropRadix : Text → Nat × Text
  | '0' :: 'b' :: cs => (2, cs)
  | '0' :: 'o' :: cs => (8, cs)
  | '0' :: 'x' :: cs => (16, cs)
  | cs => (10, cs)

def isInteger (t : Text) : Bool :=
  let (radix, figures) := dropRadix (Numeral.dropSign t).2
  t.head? != some '_' && !figures.isEmpty &&
    figures.all fun c => c == '_' || (Numeral.natural? radix [c]).isSome

/-- The integer a text stands for; the underscores do not count. -/
def integer? (t : Text) : Option Int :=
  let (negative, body) := Numeral.dropSign (t.filter (· ≠ '_'))
  let (radix, figures) := dropRadix body
  if radix = 10 && Numeral.maxDigits < figures.length then none
  else (Numeral.natural? radix figures).map (Numeral.signed negative)

/-- The number a text stands for; the underscores do not count. -/
def float? (t : Text) : Option Binary64 :=
  let (negative, body) := Numeral.dropSign (t.filter (· ≠ '_'))
  let lower := body.map Char.toLower
  if lower = ".inf".toList then some (.infinite negative)
  else if lower = ".nan".toList then some .nan
  else Numeral.decimal? (if negative then '-' :: body else body)

/-- Scalars that are keys and nothing else: `<<` merges mappings, and `=` is a key like any other.
-/
def keysOnly : List Text := ["<<", "="].map String.toList

/-- The number that a text is written like, if there is one. -/
def numberValue {α : Type} (number : α → Value) : Option α → Except Error Value
  | some n => .ok (number n)
  | none => .error (.fault .noSuchValue)

def value (t : Text) : Except Error Value :=
  if nulls.contains t then .ok .null
  else if isFloat t then numberValue .float (float? t)
  else if isInteger t then numberValue .int (integer? t)
  else if keysOnly.contains t then .error .invalid
  else
    match booleans.lookup t, Timestamp.value? t with
    | some b, _ => .ok (.bool b)
    | none, some r => r
    | none, none => .ok (.ofText t)

end ClassFormat.Yaml.Plain
