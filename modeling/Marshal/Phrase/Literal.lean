import Marshal.Text.Digit
import Marshal.Text.Identifier

/-!
Where literals end: quoted texts with escapes, raw texts between counted hash marks, characters,
octets, and numbers. Every scan yields what follows the literal, if there is one in front. A word
that follows directly is the literal's suffix.
-/

namespace Marshal.Phrase

/-- A word in front of a text, if the text starts with one. -/
def word? : List Char → Option (List Char × List Char)
  | first :: rest =>
      if Text.startsIdentifier first then
        some (first :: rest.takeWhile Text.continuesIdentifier,
          rest.dropWhile Text.continuesIdentifier)
      else none
  | [] => none

def afterSuffix (text : List Char) : List Char :=
  match word? text with
  | some (_, rest) => rest
  | none => text

/-- What a quoted text is made of: characters, octets, or characters other than the null one. -/
inductive QuoteKind
  | characters
  | octets
  | terminated
deriving DecidableEq, Repr

namespace QuoteKind

def admits : QuoteKind → Char → Bool
  | characters, _ => true
  | octets, character => character.toNat < 0x80
  | terminated, character => character ≠ '\x00'

def admitsOctet (kind : QuoteKind) (high low : Char) : Bool :=
  match Text.hexDigit? high, Text.hexDigit? low with
  | some highValue, some lowValue =>
      match kind with
      | characters => highValue < 8
      | octets => true
      | terminated => highValue + lowValue ≠ 0
  | _, _ => false

def admitsCode (kind : QuoteKind) (code : Nat) : Bool :=
  kind ≠ octets && code.isValidChar && (kind = characters || code ≠ 0)

end QuoteKind

/-- After the brace that opens a code point: up to six hexadecimal digits, the first in front, with
underscores among them. -/
def afterCodePoint? (kind : QuoteKind) : Nat → Nat → List Char → Option (List Char)
  | digits, value, character :: rest =>
      if character = '\x7d' then
        if digits ≠ 0 && kind.admitsCode value then some rest else none
      else if character = '_' then
        if digits ≠ 0 then afterCodePoint? kind digits value rest else none
      else
        match Text.hexDigit? character with
        | some digit =>
            if digits < 6 then afterCodePoint? kind (digits + 1) (value * 16 + digit) rest
            else none
        | none => none
  | _, _, [] => none

/-- After the backslash of an escape. -/
def afterEscape? (kind : QuoteKind) : List Char → Option (List Char)
  | 'x' :: high :: low :: rest => if kind.admitsOctet high low then some rest else none
  | 'u' :: '\x7b' :: rest => afterCodePoint? kind 0 0 rest
  | '0' :: rest => if kind = .terminated then none else some rest
  | character :: rest => if "nrt\\'\"".toList.contains character then some rest else none
  | [] => none

/-- After a backslash at the end of a line: the blanks in front of the next line do not count, and
something has to follow. -/
def afterLineEscape? : List Char → Option (List Char)
  | '\r' :: '\n' :: rest => afterLineEscape? rest
  | '\r' :: _ => none
  | '\n' :: rest => afterLineEscape? rest
  | ' ' :: rest => afterLineEscape? rest
  | '\t' :: rest => afterLineEscape? rest
  | [] => none
  | rest => some rest

def afterBackslash? (kind : QuoteKind) (text : List Char) : Option (List Char) :=
  match text with
  | '\n' :: _ | '\r' :: _ => afterLineEscape? text
  | _ => afterEscape? kind text

/-- After an opening quote. The bound is met by no text that is shorter. -/
def afterQuoted? (kind : QuoteKind) : Nat → List Char → Option (List Char)
  | 0, _ => none
  | _, [] => none
  | _, '"' :: rest => some (afterSuffix rest)
  | bound + 1, '\r' :: '\n' :: rest => afterQuoted? kind bound rest
  | _, '\r' :: _ => none
  | bound + 1, '\\' :: rest => (afterBackslash? kind rest).bind (afterQuoted? kind bound)
  | bound + 1, character :: rest =>
      if kind.admits character then afterQuoted? kind bound rest else none

def startsHashes (count : Nat) (text : List Char) : Bool :=
  (text.take count) = List.replicate count '#'

/-- After the opening quote of a raw text, which ends at a quote with as many hash marks. -/
def afterRaw? (kind : QuoteKind) (hashes : Nat) : List Char → Option (List Char)
  | '\r' :: '\n' :: rest => afterRaw? kind hashes rest
  | '\r' :: _ => none
  | character :: rest =>
      if character = '"' && startsHashes hashes rest then some (afterSuffix (rest.drop hashes))
      else if kind.admits character then afterRaw? kind hashes rest
      else none
  | [] => none

/-- The number of hash marks in front of a raw text is limited. -/
def hashLimit : Nat := 255

def afterRawText? (kind : QuoteKind) (text : List Char) : Option (List Char) :=
  let hashes := (text.takeWhile (· = '#')).length
  match text.drop hashes with
  | '"' :: rest => if hashes ≤ hashLimit then afterRaw? kind hashes rest else none
  | _ => none

/-- After the opening apostrophe of a single character. -/
def afterCharacter? (kind : QuoteKind) : List Char → Option (List Char)
  | '\\' :: rest =>
      match afterEscape? kind rest with
      | some ('\'' :: after) => some (afterSuffix after)
      | _ => none
  | character :: '\'' :: after => if kind.admits character then some (afterSuffix after) else none
  | _ => none

def afterTextLiteral? (text : List Char) : Option (List Char) :=
  match text with
  | '"' :: rest => afterQuoted? .characters text.length rest
  | 'b' :: '"' :: rest => afterQuoted? .octets text.length rest
  | 'c' :: '"' :: rest => afterQuoted? .terminated text.length rest
  | 'b' :: 'r' :: rest => afterRawText? .octets rest
  | 'c' :: 'r' :: rest => afterRawText? .terminated rest
  | 'r' :: rest => afterRawText? .characters rest
  | 'b' :: '\'' :: rest => afterCharacter? .octets rest
  | '\'' :: rest => afterCharacter? .characters rest
  | _ => none

/-- A number ends where no word goes on. -/
def afterNumberSuffix? (text : List Char) : Option (List Char) :=
  match afterSuffix text with
  | character :: rest =>
      if Text.continuesIdentifier character then none else some (character :: rest)
  | [] => some []

/-- After the letter that opens an exponent: an optional sign, then digits. -/
def afterExponent? : (signed valued : Bool) → List Char → Option (List Char)
  | signed, valued, character :: rest =>
      if character.isDigit then afterExponent? signed true rest
      else if character = '_' then afterExponent? signed valued rest
      else if valued then some (character :: rest)
      else if (character = '+' || character = '-') && !signed then afterExponent? true valued rest
      else none
  | _, valued, [] => if valued then some [] else none

def isDigitOrGap (character : Char) : Bool := character.isDigit || character = '_'

def startsExponent : List Char → Bool
  | character :: _ => character = 'e' || character = 'E'
  | [] => false

/-- A point is a fraction's only if neither a second one nor a word follows. -/
def startsFraction : List Char → Bool
  | '.' :: '.' :: _ => false
  | '.' :: character :: _ => !Text.startsIdentifier character
  | '.' :: [] => true
  | _ => false

/-- After a number with a fraction or an exponent. -/
def afterFraction? (text : List Char) : Option (List Char) :=
  match text with
  | first :: _ =>
      if first.isDigit then
        let whole := text.dropWhile isDigitOrGap
        if startsFraction whole then
          let fraction := whole.tail.dropWhile isDigitOrGap
          if startsExponent fraction then
            some ((afterExponent? false false fraction.tail).getD fraction)
          else some fraction
        else if startsExponent whole then afterExponent? false false whole.tail
        else none
      else none
  | [] => none

/-- After the digits of a base; letters beyond the base end them, decimal digits beyond it do not
belong into them. -/
def afterDigits? (base : Nat) : (empty : Bool) → List Char → Option (List Char)
  | empty, character :: rest =>
      if character = '_' then
        if empty && base = 10 then none else afterDigits? base empty rest
      else
        match Text.hexDigit? character with
        | some digit =>
            if digit < base then afterDigits? base false rest
            else if character.isDigit || empty then none
            else some (character :: rest)
        | none => if empty then none else some (character :: rest)
  | empty, [] => if empty then none else some []

def afterWhole? : List Char → Option (List Char)
  | '0' :: 'x' :: rest => afterDigits? 16 true rest
  | '0' :: 'o' :: rest => afterDigits? 8 true rest
  | '0' :: 'b' :: rest => afterDigits? 2 true rest
  | text => afterDigits? 10 true text

def afterNumber? (text : List Char) : Option (List Char) :=
  match (afterFraction? text).bind afterNumberSuffix? with
  | some rest => some rest
  | none => (afterWhole? text).bind afterNumberSuffix?

def afterLiteral? (text : List Char) : Option (List Char) :=
  match afterTextLiteral? text with
  | some rest => some rest
  | none => afterNumber? text

end Marshal.Phrase
