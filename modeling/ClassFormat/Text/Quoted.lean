import ClassFormat.Text.Printable

namespace ClassFormat

/-- A text as the list of its code points, surrogates included. -/
abbrev CodeText := List Nat

def Text.codes (t : Text) : CodeText := t.map Char.toNat

namespace CodeText

/-- The character of a code point, which a surrogate does not have. -/
def char? (n : Nat) : Option Char := if n.isValidChar then some (Char.ofNat n) else none

/-- The text with the given code points, if each one has a character. -/
def text? (t : CodeText) : Option Text := t.mapM char?

theorem char?_toNat (c : Char) : char? c.toNat = some c := by
  have h : c.toNat.isValidChar := c.valid
  rw [char?, if_pos h, Char.ofNat_toNat]

@[simp]
theorem text?_codes (t : Text) : text? t.codes = some t := by
  induction t with
  | nil => rfl
  | cons c cs ih =>
    simp only [Text.codes, text?] at ih
    simp [Text.codes, text?, char?_toNat, ih]

end CodeText

namespace Text

/-- The lower case hexadecimal digits of a number, with leading zeros up to a width. -/
def hexDigits (width n : Nat) : Text :=
  let digits := Nat.toDigits 16 n
  List.replicate (width - digits.length) '0' ++ digits

def escape (n : Nat) : Text :=
  if n < 0x100 then '\\' :: 'x' :: hexDigits 2 n
  else if n < 0x10000 then '\\' :: 'u' :: hexDigits 4 n
  else '\\' :: 'U' :: hexDigits 8 n

def quotedChar (quote c : Char) : Text :=
  if c = quote || c = '\\' then ['\\', c]
  else if c = '\t' then ['\\', 't']
  else if c = '\n' then ['\\', 'n']
  else if c = '\r' then ['\\', 'r']
  else if isPrintable c then [c]
  else escape c.toNat

end Text

namespace CodeText

def quoteFor (t : CodeText) : Char :=
  if t.contains '\''.toNat && !t.contains '"'.toNat then '"' else '\''

def quoted (t : CodeText) : Text :=
  let quote := t.quoteFor
  let inner := t.flatMap fun n =>
    match char? n with
    | some c => Text.quotedChar quote c
    | none => Text.escape n
  quote :: inner ++ [quote]

/-- A text as it is written out. A surrogate cannot be written and becomes an escape. -/
def written (t : CodeText) : Text :=
  t.flatMap fun n =>
    match char? n with
    | some c => [c]
    | none => Text.escape n

theorem written_codes (t : Text) : written t.codes = t := by
  induction t with
  | nil => rfl
  | cons c cs ih =>
    simp only [Text.codes, written] at ih
    simp [Text.codes, written, char?_toNat, ih]

end CodeText

def Text.quoted (t : Text) : Text := t.codes.quoted

end ClassFormat
