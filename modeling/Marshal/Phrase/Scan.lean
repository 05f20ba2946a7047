import Marshal.Phrase.Blank
import Marshal.Phrase.Literal
import Marshal.Phrase.Tree
import Marshal.Text.Quoted

/-!
The token trees that a text spells, if its brackets match and every token in it ends. Literals
come before marks, and marks before words. Notes become attributes that hold their text.
-/

namespace Marshal.Phrase

def isMark (character : Char) : Bool := "~!@#$%^&*-=+|;:,<.>/?'".toList.contains character

def startsMark : List Char → Bool
  | character :: rest => isMark character && !startsComment (character :: rest)
  | [] => false

/-- The words that stay keywords also behind the mark that lets a keyword be an identifier. -/
def unmarkedWords : List String := ["_", "super", "self", "Self", "crate"]

/-- What starts like a text or a character is no word, even if it is never closed. -/
def brokenStarts : List (List Char) :=
  ["r\"", "r#\"", "r##", "b\"", "b'", "br\"", "br#", "c\"", "cr\"", "cr#"].map String.toList

/-- A word, also one behind the mark that lets a keyword be an identifier. -/
def identifier? (text : List Char) : Option (String × List Char) :=
  match text with
  | 'r' :: '#' :: marked =>
      match word? marked with
      | some (word, rest) =>
          if unmarkedWords.contains (String.ofList word) then none
          else some ("r#" ++ String.ofList word, rest)
      | none => none
  | _ => (word? text).map fun (word, rest) => (String.ofList word, rest)

def startsRawIdentifier : List Char → Bool
  | 'r' :: '#' :: _ => true
  | _ => false

/-- The apostrophe of a lifetime is joined to a word, which no second apostrophe follows. -/
def apostrophe? (rest : List Char) : Option Tree :=
  match identifier? rest with
  | some (_, '\'' :: _) => none
  | some (_, '#' :: _) => if startsRawIdentifier rest then some (.mark '\'' true) else none
  | some _ => some (.mark '\'' true)
  | none => none

def mark? (character : Char) (rest : List Char) : Option Tree :=
  if character = '\'' then apostrophe? rest
  else if startsMark (character :: rest) then some (.mark character (startsMark rest))
  else none

/-- A literal, mark or word in front of a text. -/
def leaf? (text : List Char) : Option (Tree × List Char) :=
  match afterLiteral? text, text with
  | some rest, _ =>
      some (.literal (String.ofList (text.take (text.length - rest.length))), rest)
  | none, [] => none
  | none, character :: rest =>
      match mark? character rest with
      | some mark => some (mark, rest)
      | none =>
          if brokenStarts.any (·.isPrefixOf text) then none
          else (identifier? text).map fun (word, after) => (.word word, after)

/-- A carriage return that does not belong to the end of a line. -/
def hasLoneReturn : List Char → Bool
  | '\r' :: '\n' :: rest => hasLoneReturn rest
  | '\r' :: _ => true
  | _ :: rest => hasLoneReturn rest
  | [] => false

/-- The attribute that a note stands for; `isInner` tells a remark on what holds the note. -/
def noteTrees (isInner : Bool) (content : List Char) : List Tree :=
  .mark '#' false :: (if isInner then [.mark '!' false] else []) ++
    [.group .square [.word "doc", .mark '=' false,
      .literal (Text.listed (String.ofList content))]]

def withoutLastReturn (line : List Char) : List Char :=
  if line.getLast? = some '\r' then line.dropLast else line

/-- A note in front of a text: whether it is inner, what it says, and what follows it. -/
def note? : List Char → Option (Bool × List Char × List Char)
  | '/' :: '/' :: kind :: rest =>
      let line := rest.takeWhile (· ≠ '\n')
      let after := afterLine rest
      some (kind = '!', if after.isEmpty then line else withoutLastReturn line, after)
  | '/' :: '*' :: kind :: rest =>
      (afterComment? 0 (kind :: rest)).map fun after =>
        (kind = '!', rest.take (rest.length - after.length - 2), after)
  | _ => none

/-- The brackets that are open, each with the trees in front of it, the last ones first. -/
abbrev OpenGroups := List (Bracket × List Tree)

/-- Scans on, `trees` being what the innermost open bracket holds so far, the last ones first. The
bound is met by no text that is shorter. -/
def scan : Nat → OpenGroups → List Tree → List Char → Option (List Tree)
  | 0, _, _, _ => none
  | bound + 1, groups, trees, text =>
      let text := skipBlanks text.length text
      if startsNote text then
        match note? text with
        | some (isInner, content, rest) =>
            if hasLoneReturn content then none
            else scan bound groups ((noteTrees isInner content).reverse ++ trees) rest
        | none => none
      else
        match text with
        | [] => if groups.isEmpty then some trees.reverse else none
        | character :: rest =>
            match Bracket.opened? character, Bracket.closed? character, groups with
            | some bracket, _, _ => scan bound ((bracket, trees) :: groups) [] rest
            | none, some bracket, (opened, outer) :: groups =>
                if opened = bracket then
                  scan bound groups (.group bracket trees.reverse :: outer) rest
                else none
            | none, some _, [] => none
            | none, none, _ =>
                match leaf? text with
                | some (tree, after) => scan bound groups (tree :: trees) after
                | none => none

/-- The token trees of a text. -/
def Tree.ofText? (text : String) : Option (List Tree) :=
  scan (text.length + 1) [] [] text.toList

end Marshal.Phrase
