/-! Floating-point numbers of 64 bits, read from their bits. A finite number is
a sign and `significand * 2 ^ exponent`. -/

namespace DotDiagram

structure Binary64 where
  bits : UInt64
  deriving DecidableEq, Inhabited

namespace Binary64

instance : OfScientific Binary64 :=
  ⟨fun mantissa negative exponent => ⟨(Float.ofScientific mantissa negative exponent).toBits⟩⟩

/-- Every number of 32 bits is one of 64 bits. -/
def ofBinary32 (bits : UInt32) : Binary64 := ⟨(Float32.ofBits bits).toFloat.toBits⟩

def isNegative (x : Binary64) : Bool := Nat.pow 2 63 ≤ x.bits.toNat

def exponentField (x : Binary64) : Nat := x.bits.toNat / Nat.pow 2 52 % Nat.pow 2 11

def fractionField (x : Binary64) : Nat := x.bits.toNat % Nat.pow 2 52

def isNaN (x : Binary64) : Bool := x.exponentField == 2047 && x.fractionField != 0

def isInfinite (x : Binary64) : Bool := x.exponentField == 2047 && x.fractionField == 0

def isZero (x : Binary64) : Bool := x.exponentField == 0 && x.fractionField == 0

def isSubnormal (x : Binary64) : Bool := x.exponentField == 0

/-- Normal numbers have a hidden leading bit. -/
def significand (x : Binary64) : Nat :=
  if x.isSubnormal then x.fractionField else Nat.pow 2 52 + x.fractionField

def exponent (x : Binary64) : Int :=
  if x.isSubnormal then -1074 else x.exponentField - 1075

/-- Equality of numbers: a NaN differs from everything, and the zeros agree. -/
def sameNumber (x y : Binary64) : Bool :=
  !x.isNaN && !y.isNaN && (x.bits == y.bits || x.isZero && y.isZero)

end Binary64

end DotDiagram
