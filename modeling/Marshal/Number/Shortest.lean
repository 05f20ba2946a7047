import Marshal.Number.Binary

/-!
The shortest decimal that reads back as a given binary number. For one digit, two digits and so
on, the two neighbours of the number on that decimal grid are tested against the interval of
reals that round to it; the first grid with a hit wins, and of two hits the nearer.
-/

namespace Marshal.Number

/-- The number `digits * 10 ^ exponent`. -/
structure Decimal where
  digits : Nat
  exponent : Int
deriving DecidableEq, Repr

/-- Which of two equally near neighbours is taken. -/
inductive Tie
  | up
  | even
deriving DecidableEq, Repr

/-- The greatest power of ten that does not exceed a positive quotient. The estimate from the
power of two is off by one at most. -/
def floorLog10 (numerator denominator : Nat) : Int :=
  let estimate := floorLog2 numerator denominator * 30103 / 100000
  if reachesPower 10 numerator denominator (estimate + 1) then estimate + 1
  else if reachesPower 10 numerator denominator estimate then estimate
  else estimate - 1

/-- A number and the ends of its rounding interval, in quarters of the last binary place, and
that quarter as a quotient. -/
structure RoundingInterval where
  low : Nat
  center : Nat
  high : Nat
  closed : Bool
  numerator : Nat
  denominator : Nat

/-- The lower end is nearer where the number is the least of its binade. -/
def RoundingInterval.of (format : BinaryFormat) (significand : Nat) (exponent : Int) :
    RoundingInterval where
  low :=
    if significand = Nat.pow 2 format.fractionBits ∧ format.leastExponent < exponent
    then 4 * significand - 1 else 4 * significand - 2
  center := 4 * significand
  high := 4 * significand + 2
  closed := significand % 2 = 0
  numerator := Nat.pow 2 (exponent - 2).toNat
  denominator := Nat.pow 2 (2 - exponent).toNat

/-- The neighbour on the grid of multiples of `10 ^ place` that reads back, if there is one. -/
def RoundingInterval.onGrid? (interval : RoundingInterval) (tie : Tie) (place : Int) :
    Option Nat :=
  let unit := Nat.pow 10 place.toNat * interval.denominator
  let scale := interval.numerator * Nat.pow 10 (-place).toNat
  let below := interval.center * scale / unit
  let above := below + 1
  let belowHits := if interval.closed then interval.low * scale ≤ below * unit
    else interval.low * scale < below * unit
  let aboveHits := if interval.closed then above * unit ≤ interval.high * scale
    else above * unit < interval.high * scale
  let toBelow := interval.center * scale - below * unit
  let toAbove := above * unit - interval.center * scale
  if belowHits ∧ aboveHits then
    if toBelow < toAbove then some below
    else if toAbove < toBelow then some above
    else match tie with
      | .up => some above
      | .even => some (below + below % 2)
  else if belowHits then some below
  else if aboveHits then some above
  else none

/-- Seventeen digits always suffice for a double, so the search ends within the range. -/
def shortest (format : BinaryFormat) (tie : Tie) (significand : Nat) (exponent : Int) : Decimal :=
  if significand = 0 then ⟨0, 0⟩
  else
    let interval := RoundingInterval.of format significand exponent
    let leading := floorLog10 (interval.center * interval.numerator) interval.denominator
    let hit := (List.range 17).findSome? fun (count : Nat) =>
      (interval.onGrid? tie (leading - count)).map fun digits =>
        if digits = Nat.pow 10 (count + 1) then Decimal.mk 1 (leading + 1)
        else ⟨digits, leading - count⟩
    hit.getD ⟨0, 0⟩

end Marshal.Number
