import ClassFormat.Decimal.Binary64

namespace ClassFormat

structure Decimal where
  digits : Nat
  exponent : Int
  deriving DecidableEq, Repr

namespace Decimal

def maxDigits : Nat := 17

def leadingExponent (num den : Nat) : Int :=
  Binary64.digitCount (num * Nat.pow 10 400 / den) - 401

/-- The decimal of a given exponent that is nearest to `num / den` among those between `low / den`
and `high / den`; the ends count if `closed` says so, and a tie goes to the even neighbour. -/
def onGrid? (closed : Bool) (low num high den : Nat) (exponent : Int) : Option Decimal :=
  -- All four numbers in units of the grid, over one denominator.
  let up := if 0 ≤ exponent then 1 else Nat.pow 10 (-exponent).toNat
  let den := if 0 ≤ exponent then den * Nat.pow 10 exponent.toNat else den
  let inside (d : Nat) : Bool :=
    (low * up < d * den && d * den < high * up) ||
      (closed && (d * den = low * up || d * den = high * up))
  let below := num * up / den
  let fraction := num * up % den
  match inside below, inside (below + 1) with
  | false, false => none
  | true, false => some ⟨below, exponent⟩
  | false, true => some ⟨below + 1, exponent⟩
  | true, true =>
    if 2 * fraction < den || (2 * fraction = den && below % 2 = 0) then some ⟨below, exponent⟩
    else some ⟨below + 1, exponent⟩

/-- The shortest decimal that reads back as `mantissa · 2 ^ exponent`. Those that read back so are
the decimals of an interval around the number; its neighbours with 1, 2, … digits are tried in
turn. -/
def shortest (mantissa : Nat) (exponent : Int) : Decimal :=
  let (num, den) := Binary64.shift (4 * mantissa) 1 (2 - exponent)
  let unit := num / (4 * mantissa)
  let lower := if mantissa = Nat.pow 2 52 && Binary64.minExponent < exponent then 1 else 2
  let lead := leadingExponent num den
  ((List.range maxDigits).findSome? fun (i : Nat) =>
    onGrid? (mantissa % 2 = 0) (num - lower * unit) num (num + 2 * unit) den (lead - i)).getD
      ⟨0, 0⟩

def dropZeros (digits : List Char) : List Char :=
  (digits.reverse.dropWhile (· = '0')).reverse

/-- How a decimal is written: which leading exponents are written positionally, and with how many
digits an exponent is written at least. -/
structure Layout where
  leastPositional : Int
  greatestPositional : Int
  exponentWidth : Nat

/-- Writes a decimal that is not zero. A positional decimal always shows a point. -/
def write (layout : Layout) (d : Decimal) : List Char :=
  let all := Nat.toDigits 10 d.digits
  let lead : Int := d.exponent + all.length - 1
  let digits := dropZeros all
  if layout.leastPositional ≤ lead && lead ≤ layout.greatestPositional then
    if lead < 0 then '0' :: '.' :: List.replicate (-lead - 1).toNat '0' ++ digits
    else
      let whole := lead.toNat + 1
      digits.take whole ++ List.replicate (whole - digits.length) '0' ++
        '.' :: (if digits.length ≤ whole then ['0'] else digits.drop whole)
  else
    let power := Nat.toDigits 10 lead.natAbs
    digits.take 1 ++ (if digits.length ≤ 1 then [] else '.' :: digits.drop 1) ++
      'e' :: (if lead < 0 then '-' else '+') ::
        List.replicate (layout.exponentWidth - power.length) '0' ++ power

end Decimal

end ClassFormat
