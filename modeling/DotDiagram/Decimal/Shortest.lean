import DotDiagram.Binary64

/-! Shortest decimals. A positive number `m * 2 ^ q` stands for all reals that
round to it; its shortest decimal is the nearest to the number among those of
fewest digits in that interval, the greater one when two are equally near. -/

namespace DotDiagram.Decimal

/-- The number of decimal digits, none for zero. -/
def digitCount (n : Nat) : Nat :=
  if h : n = 0 then 0 else digitCount (n / 10) + 1
  termination_by n
  decreasing_by omega

/-- A positive number with the interval of reals that round to it, all over one
denominator. The ends belong to the interval if `closed`. -/
structure Rounding where
  low : Nat
  value : Nat
  high : Nat
  denominator : Nat
  closed : Bool

/-- The gap below a power of two is half as wide as the gap above it. -/
def Rounding.ofScaled (m : Nat) (q : Int) (atPowerOfTwo : Bool) : Rounding :=
  let low := if atPowerOfTwo then 4 * m - 1 else 4 * m - 2
  let up := Nat.pow 2 (q - 2).toNat
  ⟨low * up, 4 * m * up, (4 * m + 2) * up, Nat.pow 2 (2 - q).toNat, m % 2 == 0⟩

/-- The position of the leading digit: the value is below `10 ^ order` and at least
a tenth of it. -/
def Rounding.order (r : Rounding) : Int :=
  if r.denominator ≤ r.value then digitCount (r.value / r.denominator)
  else -(digitCount ((r.denominator + r.value - 1) / r.value - 1) - 1 : Int)

/-- A decimal `digits * 10 ^ scale`. -/
structure Scaled where
  digits : Nat
  scale : Int
  deriving DecidableEq, Repr

/-- Whether `d * 10 ^ scale` rounds to the number. -/
def Rounding.holds (r : Rounding) (d : Nat) (scale : Int) : Bool :=
  let x := d * Nat.pow 10 scale.toNat * r.denominator
  let unit := Nat.pow 10 (-scale).toNat
  if r.closed then r.low * unit ≤ x && x ≤ r.high * unit
  else r.low * unit < x && x < r.high * unit

/-- The decimal with `n` digits nearest to the number, if it rounds to it. -/
def Rounding.withDigits? (r : Rounding) (n : Nat) : Option Scaled :=
  let scale := r.order - n
  let top := r.value * Nat.pow 10 (-scale).toNat
  let bottom := r.denominator * Nat.pow 10 scale.toNat
  let below := top / bottom
  match r.holds below scale, r.holds (below + 1) scale with
  | false, false => none
  | true, false => some ⟨below, scale⟩
  | false, true => some ⟨below + 1, scale⟩
  | true, true =>
    if 2 * (top % bottom) < bottom then some ⟨below, scale⟩ else some ⟨below + 1, scale⟩

/-- Seventeen digits always suffice. -/
def Rounding.shortest (r : Rounding) : Scaled :=
  ((List.range 17).findSome? fun n => r.withDigits? (n + 1)).getD ⟨0, 0⟩

/-- Trailing zeros of the digits move into the scale. -/
def dropTrailingZeros (digits : Nat) (scale : Int) : Scaled :=
  if h : digits = 0 ∨ digits % 10 ≠ 0 then ⟨digits, scale⟩
  else dropTrailingZeros (digits / 10) (scale + 1)
  termination_by digits
  decreasing_by omega

/-- Positional notation, without an exponent and without a fraction of zeros. -/
def Scaled.text (d : Scaled) : String :=
  let d := dropTrailingZeros d.digits d.scale
  let ds := Nat.toDigits 10 d.digits
  if 0 ≤ d.scale then String.ofList (ds ++ List.replicate d.scale.toNat '0')
  else
    let places := (-d.scale).toNat
    if places < ds.length then
      String.ofList (ds.take (ds.length - places) ++ '.' :: ds.drop (ds.length - places))
    else String.ofList ('0' :: '.' :: List.replicate (places - ds.length) '0' ++ ds)

end DotDiagram.Decimal

namespace DotDiagram.Binary64

open Decimal

def rounding (x : Binary64) : Rounding :=
  .ofScaled x.significand x.exponent (x.fractionField == 0 && 1 < x.exponentField)

/-- The shortest decimal that reads back as the number. -/
def text (x : Binary64) : String :=
  if x.isNaN then "NaN"
  else
    let magnitude :=
      if x.isInfinite then "inf" else if x.isZero then "0" else x.rounding.shortest.text
    if x.isNegative then "-" ++ magnitude else magnitude

end DotDiagram.Binary64
