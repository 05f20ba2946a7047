import Marshal.Number.Double
import Marshal.Number.Shortest

/-!
How a number's digits are laid out as text. A layout fixes where plain notation ends, whether
whole numbers keep a fraction, how a positive exponent is signed and how ties between digits
go; the digits themselves are the shortest that read back.
-/

namespace Marshal.Number

structure Layout where
  /-- The decimal exponents written plainly; without bounds every number is. -/
  plain : Option (Int × Int)
  /-- Whole numbers written plainly end in a zero fraction. -/
  wholeFraction : Bool
  /-- A positive exponent carries a plus sign. -/
  signedExponent : Bool
  tie : Tie
deriving Repr

def digitChars (number : Nat) : List Char := Nat.toDigits 10 number

namespace Layout

def plainText (layout : Layout) (decimal : Decimal) : List Char :=
  let digits := digitChars decimal.digits
  let leading : Int := decimal.exponent + digits.length - 1
  if 0 ≤ decimal.exponent then
    digits ++ List.replicate decimal.exponent.toNat '0' ++
      (if layout.wholeFraction then ['.', '0'] else [])
  else if 0 ≤ leading then
    digits.take (leading.toNat + 1) ++ '.' :: digits.drop (leading.toNat + 1)
  else
    '0' :: '.' :: List.replicate (-leading - 1).toNat '0' ++ digits

def exponentText (layout : Layout) (decimal : Decimal) : List Char :=
  let digits := digitChars decimal.digits
  let leading : Int := decimal.exponent + digits.length - 1
  let sign := if leading < 0 then ['-'] else if layout.signedExponent then ['+'] else []
  let fraction := if digits.length = 1 then [] else '.' :: digits.drop 1
  digits.take 1 ++ fraction ++ 'e' :: sign ++ digitChars leading.natAbs

def decimalText (layout : Layout) (decimal : Decimal) : List Char :=
  let leading : Int := decimal.exponent + (digitChars decimal.digits).length - 1
  match layout.plain with
  | none => layout.plainText decimal
  | some (low, high) =>
      if low ≤ leading ∧ leading ≤ high then layout.plainText decimal
      else layout.exponentText decimal

def valueText (layout : Layout) (format : BinaryFormat) : BinaryValue → List Char
  | .nan => ['N', 'a', 'N']
  | .infinite negative => (if negative then ['-'] else []) ++ ['i', 'n', 'f']
  | .finite negative significand exponent =>
      (if negative then ['-'] else []) ++
        layout.decimalText (shortest format layout.tie significand exponent)

def double (layout : Layout) (number : Double) : List Char :=
  layout.valueText BinaryFormat.double number.value

def single (layout : Layout) (number : Single) : List Char :=
  layout.valueText BinaryFormat.single number.value

end Layout

/-- Digits alone, however long: no exponent, and no fraction on whole numbers. -/
def Layout.digitsOnly : Layout := ⟨none, false, false, .up⟩

end Marshal.Number
