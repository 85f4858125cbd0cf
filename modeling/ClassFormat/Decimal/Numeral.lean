import ClassFormat.Basic
import ClassFormat.Decimal.Binary64

namespace ClassFormat

/-- The zeros of all scripts, in ascending order. -/
def digitZeros : List Nat :=
  [0x30, 0x660, 0x6f0, 0x7c0, 0x966, 0x9e6, 0xa66, 0xae6, 0xb66, 0xbe6, 0xc66, 0xce6, 0xd66,
    0xde6, 0xe50, 0xed0, 0xf20, 0x1040, 0x1090, 0x17e0, 0x1810, 0x1946, 0x19d0, 0x1a80, 0x1a90,
    0x1b50, 0x1bb0, 0x1c40, 0x1c50, 0xa620, 0xa8d0, 0xa900, 0xa9d0, 0xa9f0, 0xaa50, 0xabf0,
    0xff10, 0x104a0, 0x10d30, 0x11066, 0x110f0, 0x11136, 0x111d0, 0x112f0, 0x11450, 0x114d0,
    0x11650, 0x116c0, 0x11730, 0x118e0, 0x11950, 0x11c50, 0x11d50, 0x11da0, 0x16a60, 0x16ac0,
    0x16b50, 0x1d7ce, 0x1d7d8, 0x1d7e2, 0x1d7ec, 0x1d7f6, 0x1e140, 0x1e2f0, 0x1e950, 0x1fbf0]

def digit? (c : Char) : Option Nat :=
  let n := c.toNat
  (digitZeros.find? fun z => z ≤ n && n < z + 10).map (n - ·)

end ClassFormat

namespace ClassFormat.Numeral

/-- The number of digits up to which an integer is read and written in decimal. -/
def maxDigits : Nat := 4300

/-- The blanks that may stand around an integer: all but the information separators. -/
def isMargin (c : Char) : Bool := isBlank c && !(28 ≤ c.toNat && c.toNat ≤ 31)

/-- The digits of a numeral, with single underscores between two digits dropped. -/
def digits? : Text → Option (List Nat)
  | [] => none
  | [c] => (digit? c).map fun d => [d]
  | c :: '_' :: cs => do
    let d ← digit? c
    let ds ← digits? cs
    some (d :: ds)
  | c :: cs => do
    let d ← digit? c
    let ds ← digits? cs
    some (d :: ds)

/-- The number with the given digits, the most significant first. -/
def ofDigits (radix : Nat) (digits : List Nat) : Nat := digits.foldl (fun n d => radix * n + d) 0

/-- Takes the sign off a numeral; the flag says that it is negative. -/
def dropSign : Text → Bool × Text
  | '-' :: cs => (true, cs)
  | '+' :: cs => (false, cs)
  | cs => (false, cs)

def signed (negative : Bool) (n : Nat) : Int := if negative then -n else n

def integer? (t : Text) : Option Int := do
  let inner := ((t.dropWhile isMargin).reverse.dropWhile isMargin).reverse
  let (negative, body) := dropSign inner
  let ds ← digits? body
  if maxDigits < ds.length then none else some (signed negative (ofDigits 10 ds))

def natural? (radix : Nat) (t : Text) : Option Nat := do
  let ds ← t.mapM fun c =>
    let d := if c.isDigit then some (c.toNat - 48)
      else if 'a' ≤ c && c ≤ 'f' then some (c.toNat - 87)
      else if 'A' ≤ c && c ≤ 'F' then some (c.toNat - 55)
      else none
    d.filter (· < radix)
  if ds.isEmpty then none else some (ofDigits radix ds)

/-- Reads the exponent part of a decimal; without one the exponent is zero. -/
def exponent? : Text → Option Int
  | [] => some 0
  | c :: cs =>
    if c = 'e' || c = 'E' then
      let (negative, body) := dropSign cs
      (natural? 10 body).map (signed negative)
    else none

/-- Reads a decimal such as `-1.5e3`, `inf` or `nan`, in letters of either case. -/
def decimal? (t : Text) : Option Binary64 :=
  let (negative, body) := dropSign t
  let lower := body.map Char.toLower
  if lower = "inf".toList || lower = "infinity".toList then some (.infinite negative)
  else if lower = "nan".toList then some .nan
  else
    let whole := body.takeWhile Char.isDigit
    let rest := body.dropWhile Char.isDigit
    let (part, rest) :=
      match rest with
      | '.' :: cs => (cs.takeWhile Char.isDigit, cs.dropWhile Char.isDigit)
      | _ => ([], rest)
    do
      let n ← natural? 10 (whole ++ part)
      let e ← exponent? rest
      some (Binary64.ofDecimal negative n (e - part.length))

end ClassFormat.Numeral
