/-!
What is wrong with a text that is no JSON, and where. A place is told by the number of bytes
that follow it, so that whoever finds a flaw needs only the rest of the text in hand.
-/

namespace Marshal.Json

inductive Flaw
  | unfinishedValue
  | unfinishedText
  | unfinishedArray
  | unfinishedStruct
  | valueExpected
  | wordExpected
  | colonExpected
  | itemEndExpected
  | entryEndExpected
  | nameExpected
  | trailingComma
  | trailingText
  | invalidNumber
  | numberOutOfRange
  | controlCharacter
  | invalidEscape
  | surrogateExpected
  | loneSurrogate
  | tooDeep
deriving DecidableEq, Repr

def Flaw.message : Flaw → String
  | .unfinishedValue => "EOF while parsing a value"
  | .unfinishedText => "EOF while parsing a string"
  | .unfinishedArray => "EOF while parsing a list"
  | .unfinishedStruct => "EOF while parsing an object"
  | .valueExpected => "expected value"
  | .wordExpected => "expected ident"
  | .colonExpected => "expected `:`"
  | .itemEndExpected => "expected `,` or `]`"
  | .entryEndExpected => "expected `,` or `\x7d`"
  | .nameExpected => "key must be a string"
  | .trailingComma => "trailing comma"
  | .trailingText => "trailing characters"
  | .invalidNumber => "invalid number"
  | .numberOutOfRange => "number out of range"
  | .controlCharacter => "control character (\\u0000-\\u001F) found while parsing a string"
  | .invalidEscape => "invalid escape"
  | .surrogateExpected => "unexpected end of hex escape"
  | .loneSurrogate => "lone leading surrogate in hex escape"
  | .tooDeep => "recursion limit exceeded"

/-- A flaw and how many bytes of the text follow its place. -/
structure FoundFlaw where
  flaw : Flaw
  left : Nat
deriving DecidableEq, Repr

def byteCount (characters : List Char) : Nat :=
  characters.foldl (fun count character => count + character.utf8Size) 0

namespace FoundFlaw

def atEnd (flaw : Flaw) : FoundFlaw := ⟨flaw, 0⟩

/-- Found after reading a number of bytes of what was left, or at the end if there are fewer. -/
def after (count : Nat) (characters : List Char) (flaw : Flaw) : FoundFlaw :=
  ⟨flaw, byteCount characters - count⟩

end FoundFlaw

/-- Lines are counted from one, columns in bytes from the start of the line. -/
structure Place where
  line : Nat
  column : Nat
deriving DecidableEq, Repr

/-- The place in a text that so many bytes follow. -/
def Place.ofBytesLeft (text : String) (left : Nat) : Place :=
  let bytes := text.toUTF8.toList
  let before := bytes.take (bytes.length - left)
  ⟨before.count 10 + 1, (before.reverse.takeWhile fun byte => byte ≠ 10).length⟩

end Marshal.Json
