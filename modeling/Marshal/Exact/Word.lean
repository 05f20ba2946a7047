import Marshal.Number.Double

/-!
Numbers as the words that hold them. A floating-point number is given by the hexadecimal digits of
its bits, all of them; every NaN is the same word.
-/

namespace Marshal.Exact

open Number

def hexDigit? (character : Char) : Option Nat :=
  if '0' ≤ character ∧ character ≤ '9' then some (character.toNat - '0'.toNat)
  else if 'a' ≤ character ∧ character ≤ 'f' then some (character.toNat - 'a'.toNat + 10)
  else none

def hexValue? (digits : List Char) : Option Nat :=
  digits.foldlM (fun total character => (hexDigit? character).map (16 * total + ·)) 0

/-- Bytes of two digits each. -/
def bytes? : List Char → Option (List UInt8)
  | high :: low :: rest =>
      match hexValue? [high, low], bytes? rest with
      | some value, some others => some (.ofNat value :: others)
      | _, _ => none
  | [] => some []
  | [_] => none

def hexText (width word : Nat) : String :=
  let digits := Nat.toDigits 16 word
  String.ofList (List.replicate (width - digits.length) '0' ++ digits)

def nanText : String := "nan"

def doubleText (number : Double) : String :=
  if number.isNaN then nanText else hexText 16 number.bits.toNat

def double? (text : String) : Option Double :=
  if text = nanText then some .nan else (hexValue? text.toList).map Double.ofWord

def singleText (number : Single) : String :=
  if number.isNaN then nanText else hexText 8 number.bits.toNat

def single? (text : String) : Option Single :=
  if text = nanText then some .nan else (hexValue? text.toList).map Single.ofWord

end Marshal.Exact
