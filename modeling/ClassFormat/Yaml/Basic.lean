import ClassFormat.Basic

namespace ClassFormat.Yaml

/-- What keeps a well written document from having a value. -/
inductive Fault where
  /-- A scalar is written like a value that does not exist: a number without digits or with too many
  of them, a date that no calendar has, a code point beyond the last one. -/
  | noSuchValue
  /-- A code point has more than 31 bits, or a moment is after the last year. -/
  | outOfRange
  /-- A key is a sequence that holds collections. -/
  | nestedKey
  /-- A key comes twice, and a number is too long for the entries to be shown. -/
  | unwritable
  /-- Collections are nested too deeply. -/
  | tooDeep
  deriving DecidableEq, Repr

/-- Why a text gives no value. -/
inductive Error where
  /-- The text is not a YAML document, or a mapping has a key twice or a mapping as key. -/
  | invalid
  | fault (f : Fault)
  deriving DecidableEq, Repr

def isBreak (c : Char) : Bool :=
  c == '\n' || c.toNat == 0x85 || c.toNat == 0x2028 || c.toNat == 0x2029

def normalBreak (c : Char) : Char := if c.toNat == 0x85 then '\n' else c

/-- Whether a word ends before the next character, if there is one. -/
def endsWord : Option Char → Bool
  | none => true
  | some c => c == ' ' || c == '\t' || isBreak c

/-- Whether a text starts with three such characters and a word ends there. -/
def startsTriple (c : Char) : Text → Bool
  | a :: b :: d :: cs => a == c && b == c && d == c && endsWord cs.head?
  | _ => false

def isMarker (t : Text) : Bool := startsTriple '-' t || startsTriple '.' t

def byteOrderMark : Char := Char.ofNat 0xfeff

/-- A place in a text: what is still to be read, and where that starts. Only a line feed begins a
new line here. -/
structure Cursor where
  rest : Text
  index : Nat := 0
  line : Nat := 0
  column : Nat := 0

namespace Cursor

def peek? (k : Cursor) : Option Char := k.rest.head?

def next (k : Cursor) : Cursor :=
  match k.rest with
  | [] => k
  | c :: cs =>
    if c = '\n' then { rest := cs, index := k.index + 1, line := k.line + 1, column := 0 }
    else
      { rest := cs, index := k.index + 1, line := k.line,
        column := if c = byteOrderMark then k.column else k.column + 1 }

def advance (k : Cursor) : Nat → Cursor
  | 0 => k
  | n + 1 => k.next.advance n

def moveTo (k : Cursor) (rest : Text) : Cursor := k.advance (k.rest.length - rest.length)

end Cursor

end ClassFormat.Yaml
