import Marshal.Text.Ranges

/-!
What stands between tokens: blanks, comments to the end of the line, and comments between marks,
which nest. Notes look like comments but are not skipped: they are remarks on what they stand at.
-/

namespace Marshal.Phrase

def isBlank (character : Char) : Bool :=
  Text.within [(0x9, 0xd), (0x20, 0x20), (0x85, 0x85), (0xa0, 0xa0), (0x1680, 0x1680),
    (0x2000, 0x200a), (0x200e, 0x200f), (0x2028, 0x2029), (0x202f, 0x202f), (0x205f, 0x205f),
    (0x3000, 0x3000)] character.toNat

/-- A comment with one more mark of its own kind is a note, with two more it is a comment again. -/
def startsNote : List Char → Bool
  | '/' :: '/' :: '!' :: _ => true
  | '/' :: '/' :: '/' :: '/' :: _ => false
  | '/' :: '/' :: '/' :: _ => true
  | '/' :: '*' :: '!' :: _ => true
  | '/' :: '*' :: '*' :: '*' :: _ => false
  | '/' :: '*' :: '*' :: '/' :: _ => false
  | '/' :: '*' :: '*' :: _ => true
  | _ => false

def startsComment : List Char → Bool
  | '/' :: '/' :: _ => true
  | '/' :: '*' :: _ => true
  | _ => false

/-- What follows a comment between marks, from inside of it; `depth` counts the comments around. -/
def afterComment? : Nat → List Char → Option (List Char)
  | depth, '/' :: '*' :: rest => afterComment? (depth + 1) rest
  | 0, '*' :: '/' :: rest => some rest
  | depth + 1, '*' :: '/' :: rest => afterComment? depth rest
  | depth, _ :: rest => afterComment? depth rest
  | _, [] => none

def afterLine (text : List Char) : List Char := text.dropWhile (· ≠ '\n')

/-- A text without the blanks and comments in front. A comment that is never closed stays. The
bound is met by no text that is shorter. -/
def skipBlanks : Nat → List Char → List Char
  | 0, text => text
  | bound + 1, text =>
      if startsNote text then text
      else
        match text with
        | '/' :: '/' :: rest => skipBlanks bound (afterLine rest)
        | '/' :: '*' :: rest =>
            match afterComment? 0 rest with
            | some after => skipBlanks bound after
            | none => text
        | character :: rest => if isBlank character then skipBlanks bound rest else text
        | [] => []

end Marshal.Phrase
