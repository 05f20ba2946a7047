/-!
Binary floating-point words read as exact numbers `significand * 2 ^ exponent`, and exact
quotients rounded to the nearest word, ties to the even one. All of it is arithmetic on
naturals and integers; no machine float takes part.
-/

namespace Marshal.Number

/-- The widths of a word: one sign bit, then the exponent, then the fraction. -/
structure BinaryFormat where
  fractionBits : Nat
  exponentBits : Nat

inductive BinaryValue
  | nan
  | infinite (negative : Bool)
  | finite (negative : Bool) (significand : Nat) (exponent : Int)
deriving DecidableEq, Repr

/-- Rounds `numerator / denominator` to the nearest natural, a half to the even neighbour. -/
def roundHalfEven (numerator denominator : Nat) : Nat :=
  let quotient := numerator / denominator
  let twice := 2 * (numerator % denominator)
  if twice < denominator then quotient
  else if denominator < twice then quotient + 1
  else quotient + quotient % 2

/-- Whether `numerator / denominator` is at least `base ^ power`. -/
def reachesPower (base numerator denominator : Nat) (power : Int) : Bool :=
  if 0 ≤ power then denominator * Nat.pow base power.toNat ≤ numerator
  else denominator ≤ numerator * Nat.pow base (-power).toNat

/-- The greatest power of two that does not exceed a positive quotient. -/
def floorLog2 (numerator denominator : Nat) : Int :=
  let estimate : Int := (Nat.log2 numerator : Int) - (Nat.log2 denominator : Int)
  if reachesPower 2 numerator denominator estimate then estimate else estimate - 1

namespace BinaryFormat

def single : BinaryFormat := ⟨23, 8⟩

def double : BinaryFormat := ⟨52, 11⟩

def signWeight (format : BinaryFormat) : Nat :=
  Nat.pow 2 (format.fractionBits + format.exponentBits)

/-- The magnitude of an infinite word. Every greater magnitude is a NaN. -/
def infinity (format : BinaryFormat) : Nat :=
  (Nat.pow 2 format.exponentBits - 1) * Nat.pow 2 format.fractionBits

/-- The exponent of the least positive word. -/
def leastExponent (format : BinaryFormat) : Int :=
  2 - Int.pow 2 (format.exponentBits - 1) - format.fractionBits

def negative (format : BinaryFormat) (word : Nat) : Bool :=
  word / format.signWeight % 2 = 1

def magnitude (format : BinaryFormat) (word : Nat) : Nat :=
  word % format.signWeight

def decode (format : BinaryFormat) (word : Nat) : BinaryValue :=
  let negative := format.negative word
  let magnitude := format.magnitude word
  if format.infinity < magnitude then .nan
  else if magnitude = format.infinity then .infinite negative
  else
    let biased := magnitude / Nat.pow 2 format.fractionBits
    let fraction := magnitude % Nat.pow 2 format.fractionBits
    if biased = 0 then .finite negative fraction format.leastExponent
    else .finite negative (fraction + Nat.pow 2 format.fractionBits) (format.leastExponent + biased - 1)

/-- The magnitude nearest to a quotient. A significand that rounds up to the next power of two
carries into the exponent by plain addition, and what is too large ends at infinity. -/
def roundMagnitude (format : BinaryFormat) (numerator denominator : Nat) : Nat :=
  if numerator = 0 then 0
  else
    let exponent := max format.leastExponent (floorLog2 numerator denominator - format.fractionBits)
    let significand :=
      if 0 ≤ exponent then roundHalfEven numerator (denominator * Nat.pow 2 exponent.toNat)
      else roundHalfEven (numerator * Nat.pow 2 (-exponent).toNat) denominator
    min format.infinity
      ((exponent - format.leastExponent).toNat * Nat.pow 2 format.fractionBits + significand)

def word (format : BinaryFormat) (negative : Bool) (magnitude : Nat) : Nat :=
  if negative then format.signWeight + magnitude else magnitude

/-- The word nearest to `± significand * 2 ^ exponent`. -/
def round (format : BinaryFormat) (negative : Bool) (significand : Nat) (exponent : Int) : Nat :=
  format.word negative <|
    if 0 ≤ exponent then format.roundMagnitude (significand * Nat.pow 2 exponent.toNat) 1
    else format.roundMagnitude significand (Nat.pow 2 (-exponent).toNat)

end BinaryFormat

end Marshal.Number
