import Marshal.Number.Layout
import Marshal.Tree.Node

/-!
Documents as JSON text. Doubles keep a fraction or an exponent, so that a whole double is not
read back as an integer. A double that is not finite has no text of its own and is written as
null; `Marshal.Tree.Text` refuses such documents before they come here.
-/

namespace Marshal.Json

open Number

/-- Plain notation from a hundred-thousandth up to sixteen whole digits. -/
def doubleLayout : Layout := ⟨some (-5, 15), true, true, .even⟩

def hexDigit (value : Nat) : Char := Nat.digitChar value

def escapeChar (character : Char) : List Char :=
  if character = '"' then ['\\', '"']
  else if character = '\\' then ['\\', '\\']
  else if character = '\n' then ['\\', 'n']
  else if character = '\r' then ['\\', 'r']
  else if character = '\t' then ['\\', 't']
  else if character = '\x08' then ['\\', 'b']
  else if character = '\x0c' then ['\\', 'f']
  else if character.toNat < 32 then
    ['\\', 'u', '0', '0', hexDigit (character.toNat / 16), hexDigit (character.toNat % 16)]
  else [character]

def quoted (text : String) : List Char := '"' :: text.toList.flatMap escapeChar ++ ['"']

/-- How much white space a text has. -/
structure Spacing where
  /-- What stands before an entry or a closing bracket that is this many levels deep. -/
  line : Nat → List Char
  colon : List Char

def pretty : Spacing := ⟨fun level => '\n' :: List.replicate (2 * level) ' ', [':', ' ']⟩

def compact : Spacing := ⟨fun _ => [], [':']⟩

def intText (number : Int) : List Char :=
  if number < 0 then '-' :: digitChars number.natAbs else digitChars number.natAbs

def doubleText (number : Double) : List Char :=
  if number.isFinite then doubleLayout.double number else ['n', 'u', 'l', 'l']

mutual

def render (spacing : Spacing) (level : Nat) : Node → List Char
  | .null => ['n', 'u', 'l', 'l']
  | .bool true => ['t', 'r', 'u', 'e']
  | .bool false => ['f', 'a', 'l', 's', 'e']
  | .int value => intText value.toInt
  | .uint value => digitChars value.toNat
  | .double value => doubleText value
  | .text value => quoted value
  | .struct [] => ['\x7b', '\x7d']
  | .struct (field :: rest) =>
      '\x7b' :: renderFields spacing (level + 1) (field :: rest) ++ spacing.line level ++ ['\x7d']
  | .array [] _ => ['[', ']']
  | .array (item :: rest) _ =>
      '[' :: renderItems spacing (level + 1) (item :: rest) ++ spacing.line level ++ [']']

def renderFields (spacing : Spacing) (level : Nat) : List (String × Node) → List Char
  | [] => []
  | (name, node) :: rest =>
      spacing.line level ++ quoted name ++ spacing.colon ++ render spacing level node ++
        (if rest.isEmpty then [] else ',' :: renderFields spacing level rest)

def renderItems (spacing : Spacing) (level : Nat) : List Node → List Char
  | [] => []
  | node :: rest =>
      spacing.line level ++ render spacing level node ++
        (if rest.isEmpty then [] else ',' :: renderItems spacing level rest)

end

/-- The text of a document on one line, without blanks. -/
def compactText (node : Node) : String := String.ofList (render compact 0 node)

/-- The text of a document with one entry a line, indented by two blanks a level. -/
def prettyText (node : Node) : String := String.ofList (render pretty 0 node)

end Marshal.Json
