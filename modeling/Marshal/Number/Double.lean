import Marshal.Number.Binary

/-!
Single and double precision numbers, held as their words. Two words can denote equal numbers
(the zeros) and one word can differ from itself (a NaN): `equal` compares what is denoted,
while the decidable equality compares words.
-/

namespace Marshal.Number

structure Single where
  bits : UInt32
deriving DecidableEq, Repr

structure Double where
  bits : UInt64
deriving DecidableEq, Repr

namespace Double

def ofWord (word : Nat) : Double := ⟨UInt64.ofNat word⟩

def zero : Double := ⟨0⟩

def nan : Double := ⟨0x7ff8000000000000⟩

def value (number : Double) : BinaryValue := BinaryFormat.double.decode number.bits.toNat

def magnitude (number : Double) : Nat := BinaryFormat.double.magnitude number.bits.toNat

def isNaN (number : Double) : Bool := BinaryFormat.double.infinity < number.magnitude

def isFinite (number : Double) : Bool := number.magnitude < BinaryFormat.double.infinity

def equal (left right : Double) : Bool :=
  !left.isNaN && !right.isNaN &&
    (left.bits == right.bits || (left.magnitude == 0 && right.magnitude == 0))

/-- The double nearest to an integer. -/
def ofInt (number : Int) : Double :=
  ofWord (BinaryFormat.double.round (decide (number < 0)) number.natAbs 0)

/-- The double nearest to `± digits * 10 ^ exponent`. The two early answers hold because every
finite double is below `10 ^ 309` and every positive one above `10 ^ (-324)`. -/
def ofDecimal (negative : Bool) (digits : Nat) (exponent : Int) : Double :=
  let places : Int := (Nat.toDigits 10 digits).length
  ofWord <| BinaryFormat.double.word negative <|
    if digits = 0 then 0
    else if 310 < exponent + places then BinaryFormat.double.infinity
    else if exponent + places < -330 then 0
    else if 0 ≤ exponent then BinaryFormat.double.roundMagnitude (digits * Nat.pow 10 exponent.toNat) 1
    else BinaryFormat.double.roundMagnitude digits (Nat.pow 10 (-exponent).toNat)

end Double

namespace Single

def ofWord (word : Nat) : Single := ⟨UInt32.ofNat word⟩

def zero : Single := ⟨0⟩

def nan : Single := ⟨0x7fc00000⟩

def largest : Single := ⟨0x7f7fffff⟩

def value (number : Single) : BinaryValue := BinaryFormat.single.decode number.bits.toNat

def magnitude (number : Single) : Nat := BinaryFormat.single.magnitude number.bits.toNat

def isNaN (number : Single) : Bool := BinaryFormat.single.infinity < number.magnitude

def equal (left right : Single) : Bool :=
  !left.isNaN && !right.isNaN &&
    (left.bits == right.bits || (left.magnitude == 0 && right.magnitude == 0))

/-- Every single is a double, so nothing is rounded here. -/
def toDouble (number : Single) : Double :=
  match number.value with
  | .nan => .nan
  | .infinite negative => .ofWord (BinaryFormat.double.word negative BinaryFormat.double.infinity)
  | .finite negative significand exponent =>
      .ofWord (BinaryFormat.double.round negative significand exponent)

end Single

namespace Double

def toSingle (number : Double) : Single :=
  match number.value with
  | .nan => .nan
  | .infinite negative => .ofWord (BinaryFormat.single.word negative BinaryFormat.single.infinity)
  | .finite negative significand exponent =>
      .ofWord (BinaryFormat.single.round negative significand exponent)

/-- Whether a finite number lies beyond the largest single on either side. -/
def exceedsSingle (number : Double) : Bool :=
  number.isFinite && Single.largest.toDouble.magnitude < number.magnitude

end Double

end Marshal.Number
