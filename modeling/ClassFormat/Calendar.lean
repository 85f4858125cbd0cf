import ClassFormat.Basic

namespace ClassFormat

structure Date where
  year : Nat
  month : Nat
  day : Nat
  deriving DecidableEq, Repr

namespace Date

def isLeapYear (year : Nat) : Bool := year % 4 == 0 && (year % 100 != 0 || year % 400 == 0)

def monthLength (year month : Nat) : Nat :=
  if month = 2 then if isLeapYear year then 29 else 28
  else if [4, 6, 9, 11].contains month then 30
  else 31

def isValid (d : Date) : Bool :=
  1 ≤ d.year && d.year ≤ 9999 && 1 ≤ d.month && d.month ≤ 12 &&
    1 ≤ d.day && d.day ≤ monthLength d.year d.month

def next (d : Date) : Date :=
  if d.day < monthLength d.year d.month then { d with day := d.day + 1 }
  else if d.month < 12 then ⟨d.year, d.month + 1, 1⟩
  else ⟨d.year + 1, 1, 1⟩

/-- The number of days from the start of the year 1 through a date. -/
def ordinal (d : Date) : Nat :=
  let past := d.year - 1
  let months := (List.range (d.month - 1)).foldl (fun n m => n + monthLength d.year (m + 1)) 0
  365 * past + past / 4 - past / 100 + past / 400 + months + d.day

end Date

/-- How far a clock is ahead of universal time, and how that was written. -/
structure Offset where
  seconds : Int
  name : Text
  deriving DecidableEq, Repr

/-- Whether a clock can be that far from universal time: by less than a day. -/
def Offset.isValid (o : Offset) : Bool := o.seconds.natAbs < 86400

/-- A date with a time of day. It may say how far its clock is from universal time. -/
structure Moment where
  date : Date
  hour : Nat
  minute : Nat
  second : Nat
  microsecond : Nat
  offset : Option Offset
  deriving DecidableEq, Repr

namespace Moment

def isValid (m : Moment) : Bool :=
  m.date.isValid && m.hour < 24 && m.minute < 60 && m.second < 60 && m.offset.all Offset.isValid

def nextSecond (m : Moment) : Moment :=
  let m := { m with microsecond := 0 }
  if m.second < 59 then { m with second := m.second + 1 }
  else if m.minute < 59 then { m with second := 0, minute := m.minute + 1 }
  else if m.hour < 23 then { m with second := 0, minute := 0, hour := m.hour + 1 }
  else { m with second := 0, minute := 0, hour := 0, date := m.date.next }

/-- The seconds from a common start to a moment of a clock with the given offset. -/
def instant (m : Moment) (o : Offset) : Int :=
  (((m.date.ordinal * 24 + m.hour) * 60 + m.minute) * 60 + m.second : Nat) - o.seconds

/-- Whether two moments are the same. One without an offset is never the same as one with it. -/
def same (m n : Moment) : Bool :=
  match m.offset, n.offset with
  | some o, some p => m.instant o == n.instant p && m.microsecond == n.microsecond
  | none, none => m == n
  | _, _ => false

end Moment

end ClassFormat
