import Marshal.Json.Flaw
import Marshal.Number.Double
import Marshal.Number.Layout
import Marshal.Text.Digit

/-!
The tokens of JSON text. Whole numbers are told apart by range: what fits no integer family,
and minus zero, is a double, and so is every number with a fraction or an exponent. Which double it
is, a `NumberReader` says. A lexical flaw ends the token list with `invalid`.
-/

namespace Marshal.Json

open Number
open Text (hexDigit?)

inductive Token
  | openStruct
  | closeStruct
  | openArray
  | closeArray
  | colon
  | comma
  | null
  | bool (value : Bool)
  | int (value : Int64)
  | uint (value : UInt64)
  | double (value : Double)
  | text (value : String)
  | invalid (found : FoundFlaw)
deriving DecidableEq, Repr

def isBlank (character : Char) : Bool :=
  character = ' ' || character = '\t' || character = '\n' || character = '\r'

/-- The code unit that four hexadecimal digits spell. -/
def codeUnit? (first second third fourth : Char) : Option Nat :=
  match hexDigit? first, hexDigit? second, hexDigit? third, hexDigit? fourth with
  | some a, some b, some c, some d => some (((a * 16 + b) * 16 + c) * 16 + d)
  | _, _, _, _ => none

def isHighSurrogate (unit : Nat) : Bool := 0xd800 ≤ unit ∧ unit < 0xdc00

def isLowSurrogate (unit : Nat) : Bool := 0xdc00 ≤ unit ∧ unit < 0xe000

def simpleEscape? (character : Char) : Option Char :=
  match character with
  | '"' => some '"'
  | '\\' => some '\\'
  | '/' => some '/'
  | 'b' => some '\x08'
  | 'f' => some '\x0c'
  | 'n' => some '\n'
  | 'r' => some '\r'
  | 't' => some '\t'
  | _ => none

/-- What is wrong where the four digits of a code unit should stand. Bytes are counted here, not
characters. -/
def unitFlaw (characters : List Char) : FoundFlaw :=
  if byteCount characters < 4 then .atEnd .unfinishedText else .after 4 characters .invalidEscape

/-- What is wrong after a high surrogate that no full escape follows. -/
def secondUnitFlaw : List Char → FoundFlaw
  | '\\' :: 'u' :: rest => unitFlaw rest
  | ['\\'] => .atEnd .unfinishedText
  | '\\' :: rest => .after 1 rest .surrogateExpected
  | [] => .atEnd .unfinishedText
  | rest => .after 1 rest .surrogateExpected

/-- Reads up to the closing quote and gives back what follows it. A high surrogate stands only
before a low one, a low one only after a high one. -/
def scanText : List Char → Except FoundFlaw (List Char × List Char)
  | [] => .error (.atEnd .unfinishedText)
  | '"' :: rest => .ok ([], rest)
  | '\\' :: 'u' :: a :: b :: c :: d :: rest =>
      match codeUnit? a b c d with
      | none => .error (unitFlaw (a :: b :: c :: d :: rest))
      | some unit =>
          if isLowSurrogate unit then .error (.after 0 rest .loneSurrogate)
          else if isHighSurrogate unit then
            match rest with
            | '\\' :: 'u' :: e :: f :: g :: h :: tail =>
                match codeUnit? e f g h with
                | none => .error (unitFlaw (e :: f :: g :: h :: tail))
                | some low =>
                    if isLowSurrogate low then
                      let code := 0x10000 + (unit - 0xd800) * 0x400 + (low - 0xdc00)
                      (scanText tail).map fun scanned => (Char.ofNat code :: scanned.1, scanned.2)
                    else .error (.after 0 tail .loneSurrogate)
            | _ => .error (secondUnitFlaw rest)
          else (scanText rest).map fun scanned => (Char.ofNat unit :: scanned.1, scanned.2)
  | '\\' :: escaped :: rest =>
      match simpleEscape? escaped with
      | none =>
          .error (if escaped = 'u' then unitFlaw rest
            else .after 1 (escaped :: rest) .invalidEscape)
      | some character => (scanText rest).map fun scanned => (character :: scanned.1, scanned.2)
  | character :: rest =>
      if character = '\\' then .error (.atEnd .unfinishedText)
      else if character.toNat < 32 then .error (.after 0 rest .controlCharacter)
      else (scanText rest).map fun scanned => (character :: scanned.1, scanned.2)

def digitsValue (digits : List Char) : Nat :=
  digits.foldl (fun value digit => value * 10 + (digit.toNat - '0'.toNat)) 0

/-- A run of digits that is not empty, and what follows it. -/
def scanDigits (characters : List Char) : Except FoundFlaw (List Char × List Char) :=
  match characters.takeWhile Char.isDigit with
  | [] =>
      .error (if characters.isEmpty then .atEnd .unfinishedValue
        else .after 1 characters .invalidNumber)
  | digits => .ok (digits, characters.dropWhile Char.isDigit)

/-- The digits before a point or an exponent. A leading zero stands alone. -/
def scanWhole (characters : List Char) : Except FoundFlaw (List Char × List Char) := do
  let scanned ← scanDigits characters
  if scanned.1.head? = some '0' ∧ scanned.1.length ≠ 1 then
    .error (.after 2 characters .invalidNumber)
  else .ok scanned

/-- The digits after a point, if there is one. -/
def scanFraction : List Char → Except FoundFlaw (Option (List Char) × List Char)
  | '.' :: rest => (scanDigits rest).map fun scanned => (some scanned.1, scanned.2)
  | rest => .ok (none, rest)

/-- The digits of an exponent, without its mark, and whether it is negative. -/
structure Exponent where
  negative : Bool
  digits : List Char

def Exponent.value (exponent : Exponent) : Int :=
  if exponent.negative then -digitsValue exponent.digits else digitsValue exponent.digits

def scanExponentDigits (negative : Bool) (characters : List Char) :
    Except FoundFlaw (Option Exponent × List Char) :=
  (scanDigits characters).map fun scanned => (some ⟨negative, scanned.1⟩, scanned.2)

/-- The exponent, if there is one. -/
def scanExponent : List Char → Except FoundFlaw (Option Exponent × List Char)
  | mark :: rest =>
      if mark = 'e' ∨ mark = 'E' then
        match rest with
        | '+' :: digits => scanExponentDigits false digits
        | '-' :: digits => scanExponentDigits true digits
        | digits => scanExponentDigits false digits
      else .ok (none, mark :: rest)
  | [] => .ok (none, [])

/-- How numbers are read that are kept as doubles: from their sign, their digits before and after the
point and their exponent. Nothing is asked of it; a reader may be off in the last place. A number that
is read as none that is finite is out of range. -/
class NumberReader where
  read (negative : Bool) (whole places : List Char) (exponent : Int) : Double

/-- Reads every number as the double nearest to it. -/
instance NumberReader.exact : NumberReader where
  read negative whole places exponent :=
    .ofDecimal negative (digitsValue (whole ++ places)) (exponent - places.length)

def finiteToken (number : Double) : Option Token :=
  if number.isFinite then some (.double number) else none

def wholeToken [NumberReader] (negative : Bool) (digits : List Char) : Option Token :=
  let magnitude := digitsValue digits
  if negative then
    if magnitude = 0 ∨ Nat.pow 2 63 < magnitude then
      finiteToken (NumberReader.read true digits [] 0)
    else some (.int (.ofInt (-magnitude)))
  else if magnitude < Nat.pow 2 64 then some (.uint (.ofNat magnitude))
  else finiteToken (NumberReader.read false digits [] 0)

def numberToken [NumberReader] (negative : Bool) (whole : List Char)
    (fraction : Option (List Char)) (exponent : Option Exponent) : Option Token :=
  match fraction, exponent with
  | none, none => wholeToken negative whole
  | _, _ =>
      let power : Int := (exponent.map Exponent.value).getD 0
      finiteToken (NumberReader.read negative whole (fraction.getD []) power)

/-- How many digits of an exponent are not looked at, because those before them already go
beyond 31 bits. -/
def unreadDigits (digits : List Char) : Nat :=
  (List.range digits.length).countP fun length => Nat.pow 2 31 ≤ digitsValue (digits.take length)

/-- A number from its first digit on. -/
def scanNumber [NumberReader] (negative : Bool) (characters : List Char) :
    Except FoundFlaw (Token × List Char) := do
  let (whole, afterWhole) ← scanWhole characters
  let (fraction, afterFraction) ← scanFraction afterWhole
  let (exponent, rest) ← scanExponent afterFraction
  match numberToken negative whole fraction exponent with
  | some token => .ok (token, rest)
  | none =>
      let unread := (exponent.map fun exponent => unreadDigits exponent.digits).getD 0
      .error ⟨.numberOutOfRange, byteCount rest + unread⟩

/-- What is left after an exact beginning. -/
def dropExact : List Char → List Char → Except FoundFlaw (List Char)
  | [], rest => .ok rest
  | expected :: more, found :: rest =>
      if expected = found then dropExact more rest
      else .error (.after 1 (found :: rest) .wordExpected)
  | _ :: _, [] => .error (.atEnd .unfinishedValue)

/-- The token that starts with a character that is not blank, and what follows it. -/
def scanToken [NumberReader] (first : Char) (rest : List Char) :
    Except FoundFlaw (Token × List Char) :=
  match first with
  | '\x7b' => .ok (.openStruct, rest)
  | '\x7d' => .ok (.closeStruct, rest)
  | '[' => .ok (.openArray, rest)
  | ']' => .ok (.closeArray, rest)
  | ':' => .ok (.colon, rest)
  | ',' => .ok (.comma, rest)
  | '"' => (scanText rest).map fun scanned => (.text (String.ofList scanned.1), scanned.2)
  | 'n' => (dropExact ['u', 'l', 'l'] rest).map fun tail => (.null, tail)
  | 't' => (dropExact ['r', 'u', 'e'] rest).map fun tail => (.bool true, tail)
  | 'f' => (dropExact ['a', 'l', 's', 'e'] rest).map fun tail => (.bool false, tail)
  | '-' => scanNumber true rest
  | other =>
      if other.isDigit then scanNumber false (other :: rest)
      else .error (.after 1 (other :: rest) .valueExpected)

theorem map_eq_ok {Read Made : Type} {result : Except FoundFlaw Read} {make : Read → Made}
    {made : Made} :
    result.map make = .ok made ↔ ∃ read, result = .ok read ∧ make read = made := by
  cases result <;> simp [Except.map]

theorem bind_eq_ok {Read Made : Type} {result : Except FoundFlaw Read}
    {next : Read → Except FoundFlaw Made} {made : Made} :
    result >>= next = .ok made ↔ ∃ read, result = .ok read ∧ next read = .ok made := by
  cases result <;> simp [bind, Except.bind]

theorem scanText_shorter {characters text rest : List Char}
    (scanned : scanText characters = .ok (text, rest)) : rest.length < characters.length := by
  fun_induction scanText characters generalizing text rest <;> simp_all [map_eq_ok] <;> grind

theorem scanDigits_shorter {characters digits rest : List Char}
    (scanned : scanDigits characters = .ok (digits, rest)) :
    rest.length < characters.length := by
  unfold scanDigits at scanned
  have whole : (characters.takeWhile Char.isDigit ++ characters.dropWhile Char.isDigit).length =
      characters.length := by rw [List.takeWhile_append_dropWhile]
  split at scanned
  · simp at scanned
  · rename_i nonempty
    have some_digit : 0 < (characters.takeWhile Char.isDigit).length := by
      cases taken : characters.takeWhile Char.isDigit with
      | nil => exact absurd taken nonempty
      | cons => simp
    simp only [Except.ok.injEq, Prod.mk.injEq] at scanned
    rw [← scanned.2]
    simp only [List.length_append] at whole
    omega

theorem scanWhole_shorter {characters digits rest : List Char}
    (scanned : scanWhole characters = .ok (digits, rest)) :
    rest.length < characters.length := by
  obtain ⟨found, read, kept⟩ := bind_eq_ok.mp scanned
  split at kept
  · simp at kept
  · exact scanDigits_shorter (by rw [read, kept])

theorem scanFraction_not_longer {characters rest : List Char} {fraction : Option (List Char)}
    (scanned : scanFraction characters = .ok (fraction, rest)) :
    rest.length ≤ characters.length := by
  unfold scanFraction at scanned
  split at scanned
  · obtain ⟨⟨digits, tail⟩, found, same⟩ := map_eq_ok.mp scanned
    have shorter := scanDigits_shorter found
    simp only [Prod.mk.injEq] at same
    simp only [List.length_cons, ← same.2]
    omega
  · simp only [Except.ok.injEq, Prod.mk.injEq] at scanned
    simp [scanned.2]

theorem scanExponentDigits_shorter {negative : Bool} {characters rest : List Char}
    {exponent : Option Exponent}
    (scanned : scanExponentDigits negative characters = .ok (exponent, rest)) :
    rest.length < characters.length := by
  obtain ⟨⟨digits, tail⟩, found, same⟩ := map_eq_ok.mp scanned
  have shorter := scanDigits_shorter found
  simp only [Prod.mk.injEq] at same
  simpa [← same.2] using shorter

theorem scanExponent_not_longer {characters rest : List Char} {exponent : Option Exponent}
    (scanned : scanExponent characters = .ok (exponent, rest)) :
    rest.length ≤ characters.length := by
  unfold scanExponent at scanned
  split at scanned
  · split at scanned
    · split at scanned <;> have shorter := scanExponentDigits_shorter scanned <;>
        simp only [List.length_cons] <;> omega
    · simp only [Except.ok.injEq, Prod.mk.injEq] at scanned
      simp [← scanned.2]
  · simp only [Except.ok.injEq, Prod.mk.injEq] at scanned
    simp [← scanned.2]

theorem scanNumber_shorter [NumberReader] {negative : Bool} {characters rest : List Char}
    {token : Token} (scanned : scanNumber negative characters = .ok (token, rest)) :
    rest.length < characters.length := by
  obtain ⟨⟨whole, afterWhole⟩, digits, scanned⟩ := bind_eq_ok.mp scanned
  obtain ⟨⟨fraction, afterFraction⟩, places, scanned⟩ := bind_eq_ok.mp scanned
  obtain ⟨⟨exponent, tail⟩, power, scanned⟩ := bind_eq_ok.mp scanned
  have afterDigits := scanWhole_shorter digits
  have afterPlaces := scanFraction_not_longer places
  have afterPower := scanExponent_not_longer power
  dsimp only at scanned
  split at scanned
  · simp only [Except.ok.injEq, Prod.mk.injEq] at scanned
    rw [← scanned.2]
    omega
  · simp at scanned

theorem dropExact_not_longer {expected characters rest : List Char}
    (dropped : dropExact expected characters = .ok rest) : rest.length ≤ characters.length := by
  fun_induction dropExact expected characters with
  | case1 => simp_all
  | case2 more found tail ih => exact Nat.le_succ_of_le (ih dropped)
  | case3 => simp at dropped
  | case4 => simp at dropped

theorem scanToken_not_longer [NumberReader] {first : Char} {characters rest : List Char} {token : Token}
    (scanned : scanToken first characters = .ok (token, rest)) :
    rest.length ≤ characters.length := by
  unfold scanToken at scanned
  split at scanned
  case h_7 =>
    obtain ⟨⟨text, tail⟩, found, same⟩ := map_eq_ok.mp scanned
    simp only [Prod.mk.injEq] at same
    exact Nat.le_of_lt (same.2 ▸ scanText_shorter found)
  case h_8 | h_9 | h_10 =>
    obtain ⟨tail, found, same⟩ := map_eq_ok.mp scanned
    simp only [Prod.mk.injEq] at same
    exact same.2 ▸ dropExact_not_longer found
  case h_11 => exact Nat.le_of_lt (scanNumber_shorter scanned)
  case h_12 =>
    split at scanned
    · exact Nat.le_of_lt_succ (scanNumber_shorter scanned)
    · simp at scanned
  all_goals
    simp only [Except.ok.injEq, Prod.mk.injEq] at scanned
    simp [scanned.2]

/-- A token and the text from its first character on. -/
structure Located where
  token : Token
  start : List Char
deriving DecidableEq, Repr

/-- A flaw found by looking at the first byte of a token. -/
def Located.found (located : Located) (flaw : Flaw) : FoundFlaw := .after 1 located.start flaw

/-- The tokens of a text up to its end or to the first lexical flaw. -/
def tokens [NumberReader] : List Char → List Located
  | [] => []
  | first :: rest =>
      if isBlank first then tokens rest
      else
        match _scanned : scanToken first rest with
        | .ok (token, tail) => ⟨token, first :: rest⟩ :: tokens tail
        | .error found => [⟨.invalid found, first :: rest⟩]
termination_by characters => characters.length
decreasing_by
  · simp
  · have := scanToken_not_longer _scanned
    simp only [List.length_cons]
    omega

end Marshal.Json
