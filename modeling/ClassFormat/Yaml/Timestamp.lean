import ClassFormat.Value
import ClassFormat.Yaml.Basic

namespace ClassFormat.Yaml.Timestamp

def isGap (c : Char) : Bool := c == ' ' || c == '\t'

def number? (least most : Nat) (t : Text) : Option (Nat × Text) :=
  let digits := (t.take most).takeWhile Char.isDigit
  if digits.length < least then none
  else (Numeral.natural? 10 digits).map fun n => (n, t.drop digits.length)

/-- Passes one character. -/
def dropMark? (c : Char) : Text → Option Text
  | [] => none
  | d :: ds => if d = c then some ds else none

def date? (least : Nat) (t : Text) : Option (Date × Text) := do
  let (year, t) ← number? 4 4 t
  let (month, t) ← number? least 2 (← dropMark? '-' t)
  let (day, t) ← number? least 2 (← dropMark? '-' t)
  some (⟨year, month, day⟩, t)

/-- Passes what stands between a date and a time: one letter, or blanks. -/
def dropSeparator? : Text → Option Text
  | [] => none
  | c :: cs =>
    if c = 'T' || c = 't' then some cs
    else if isGap c then some (cs.dropWhile isGap)
    else none

/-- Reads the digits of a fraction, which may be missing. -/
def fraction : Text → Text × Text
  | '.' :: cs => (cs.takeWhile Char.isDigit, cs.dropWhile Char.isDigit)
  | t => ([], t)

/-- The microseconds that the digits of a fraction give: six digits count, and the seventh one
rounds. -/
def microseconds (digits : Text) : Nat :=
  let six := (digits ++ List.replicate 6 '0').take 6
  (Numeral.natural? 10 six).getD 0 + if digits[6]?.any ('5' ≤ ·) then 1 else 0

/-- Reads the minutes of an offset up to the end of the text; without any they are zero. -/
def offsetMinutes? : Text → Option Nat
  | [] => some 0
  | ':' :: cs =>
    match number? 2 2 cs with
    | some (n, []) => some n
    | _ => none
  | _ => none

/-- Reads an offset up to the end of the text. It may be missing, and blanks may stand before it. -/
def offset? (t : Text) : Option (Option Offset) :=
  match t, t.dropWhile isGap with
  | [], _ => some none
  | _, ['Z'] => some (some ⟨0, ['Z']⟩)
  | _, sign :: cs =>
    if sign = '+' || sign = '-' then do
      let (hours, rest) ← number? 1 2 cs
      let minutes ← offsetMinutes? rest
      some (some ⟨Numeral.signed (sign = '-') (60 * (60 * hours + minutes)), sign :: cs⟩)
    else none
  | _, [] => none

/-- Reads a moment. The microseconds may come to a full second. -/
def moment? (t : Text) : Option Moment := do
  let (date, t) ← date? 1 t
  let (hour, t) ← number? 1 2 (← dropSeparator? t)
  let (minute, t) ← number? 2 2 (← dropMark? ':' t)
  let (second, t) ← number? 2 2 (← dropMark? ':' t)
  let (digits, t) := fraction t
  let offset ← offset? t
  some { date, hour, minute, second, microsecond := microseconds digits, offset }

/-- A date as a value, if the calendar has it. -/
def ofDate (d : Date) : Except Error Value :=
  if d.isValid then .ok (.date d) else .error (.fault .noSuchValue)

/-- A moment as a value, if there is such a moment. A full second of microseconds is carried over.
-/
def ofMoment (m : Moment) : Except Error Value :=
  if !m.isValid then .error (.fault .noSuchValue)
  else if m.microsecond < 1000000 then .ok (.moment m)
  else if m.nextSecond.isValid then .ok (.moment m.nextSecond)
  else .error (.fault .outOfRange)

def value? (t : Text) : Option (Except Error Value) :=
  match date? 2 t with
  | some (d, []) => some (ofDate d)
  | _ => (moment? t).map ofMoment

end ClassFormat.Yaml.Timestamp
