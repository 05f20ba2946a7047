/-!
Token trees of source text: words, marks, literals, and groups in brackets. A mark tells whether
another mark follows it directly, so that marks of several characters can be told from marks that
stand apart. The text of a tree has nothing between its tokens.
-/

namespace Marshal.Phrase

inductive Bracket
  | round
  | square
  | curly
deriving DecidableEq, Repr

namespace Bracket

def opening : Bracket → Char
  | round => '('
  | square => '['
  | curly => '\x7b'

def closing : Bracket → Char
  | round => ')'
  | square => ']'
  | curly => '\x7d'

def all : List Bracket := [round, square, curly]

def opened? (character : Char) : Option Bracket :=
  all.find? fun bracket => bracket.opening = character

def closed? (character : Char) : Option Bracket :=
  all.find? fun bracket => bracket.closing = character

/-- A text between an opening and a closing bracket. -/
def enclose (bracket : Bracket) (text : String) : String :=
  String.singleton bracket.opening ++ text ++ String.singleton bracket.closing

end Bracket

inductive Tree
  | word (text : String)
  | mark (character : Char) (joined : Bool)
  | literal (text : String)
  | group (bracket : Bracket) (content : List Tree)

namespace Tree

mutual

def text : Tree → String
  | .word text => text
  | .mark character _ => String.singleton character
  | .literal text => text
  | .group bracket content => bracket.enclose (texts content)

def texts : List Tree → String
  | [] => ""
  | tree :: rest => text tree ++ texts rest

end

end Tree

end Marshal.Phrase
