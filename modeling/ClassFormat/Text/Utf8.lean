import ClassFormat.Text.Quoted

namespace ClassFormat

abbrev Bytes := List UInt8

namespace Utf8

inductive Cause where
  /-- A byte that starts no character. -/
  | start
  /-- A byte that cannot stand where the character needs another one. -/
  | continuation
  /-- The bytes end inside a character. -/
  | ending
  deriving DecidableEq, Repr

/-- Where bytes stop being a text: the first byte of the character that went wrong, its position,
and how many bytes of the character were read. -/
structure Fault where
  cause : Cause
  first : UInt8
  position : Nat
  length : Nat
  deriving DecidableEq, Repr

def Fault.message (f : Fault) : Text :=
  let decimal (n : Nat) : Text := Nat.toDigits 10 n
  let place :=
    if f.length ≤ 1 then
      "byte 0x".toList ++ Text.hexDigits 2 f.first.toNat ++ " in position ".toList ++
        decimal f.position
    else
      "bytes in position ".toList ++ decimal f.position ++
        '-' :: decimal (f.position + f.length - 1)
  let reason :=
    match f.cause with
    | .start => "invalid start byte"
    | .continuation => "invalid continuation byte"
    | .ending => "unexpected end of data"
  "'utf-8' codec can't decode ".toList ++ place ++ ": ".toList ++ reason.toList

/-- A character under way: the code point so far, how many bytes are missing, and the bounds of the
next byte. -/
structure Partial where
  first : UInt8
  length : Nat
  code : Nat
  missing : Nat
  low : Nat := 0x80
  high : Nat := 0xbf

def lead? (b : UInt8) : Option Partial :=
  let n := b.toNat
  if 0xc2 ≤ n && n ≤ 0xdf then some { first := b, length := 1, code := n - 0xc0, missing := 1 }
  else if 0xe0 ≤ n && n ≤ 0xef then
    some { first := b, length := 1, code := n - 0xe0, missing := 2
           low := if n = 0xe0 then 0xa0 else 0x80, high := if n = 0xed then 0x9f else 0xbf }
  else if 0xf0 ≤ n && n ≤ 0xf4 then
    some { first := b, length := 1, code := n - 0xf0, missing := 3
           low := if n = 0xf0 then 0x90 else 0x80, high := if n = 0xf4 then 0x8f else 0xbf }
  else none

/-- Reads bytes from a position on, inside the given character if there is one. -/
def decodeFrom (position : Nat) (inside : Option Partial) : Bytes → Except Fault Text
  | [] =>
    match inside with
    | none => .ok []
    | some p => .error ⟨.ending, p.first, position - p.length, p.length⟩
  | b :: bs =>
    match inside with
    | none =>
      if b.toNat < 0x80 then
        (decodeFrom (position + 1) none bs).map (Char.ofNat b.toNat :: ·)
      else
        match lead? b with
        | some p => decodeFrom (position + 1) (some p) bs
        | none => .error ⟨.start, b, position, 1⟩
    | some p =>
      if p.low ≤ b.toNat && b.toNat ≤ p.high then
        let code := 64 * p.code + (b.toNat - 0x80)
        if p.missing ≤ 1 then (decodeFrom (position + 1) none bs).map (Char.ofNat code :: ·)
        else
          decodeFrom (position + 1)
            (some { first := p.first, length := p.length + 1, code, missing := p.missing - 1 }) bs
      else .error ⟨.continuation, p.first, position - p.length, p.length⟩

/-- The text that bytes encode. They are read one at a time, so that a fault can name the bytes of
the character that went wrong. -/
def decode (bytes : Bytes) : Except Fault Text := decodeFrom 0 none bytes

def encodeChar (c : Char) : Bytes :=
  let n := c.toNat
  let byte (k : Nat) : UInt8 := UInt8.ofNat k
  if n < 0x80 then [byte n]
  else if n < 0x800 then [byte (0xc0 + n / 64), byte (0x80 + n % 64)]
  else if n < 0x10000 then
    [byte (0xe0 + n / 4096), byte (0x80 + n / 64 % 64), byte (0x80 + n % 64)]
  else
    [byte (0xf0 + n / 262144), byte (0x80 + n / 4096 % 64), byte (0x80 + n / 64 % 64),
      byte (0x80 + n % 64)]

def encode (t : Text) : Bytes := t.flatMap encodeChar

end Utf8

end ClassFormat
