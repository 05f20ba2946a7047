import Marshal.Phrase.Scan

/-!
Reading phrases off token trees. A reader takes trees from the front and yields what it took,
respelled with nothing between the tokens; which way to read on is decided by the trees that come
next, never by trying. Literals keep their blanks.
-/

namespace Marshal.Phrase

abbrev Reader := StateT (List Tree) Option

/-! ### What comes next -/

abbrev Ahead := List Tree → Bool

def nothingNext : Ahead := List.isEmpty

def wordNext (word : String) : Ahead
  | .word text :: _ => text = word
  | _ => false

def anyWordNext : Ahead
  | .word _ :: _ => true
  | _ => false

def startsMarks : List Char → Ahead
  | [], _ => true
  | [wanted], .mark character _ :: _ => character = wanted
  | wanted :: others, .mark character joined :: rest =>
      character = wanted && joined && startsMarks others rest
  | _, _ => false

/-- Whether a mark of one or more characters comes next; more characters may be joined to it. -/
def marksNext (marks : String) : Ahead := startsMarks marks.toList

def anyOfMarksNext (marks : List String) : Ahead := fun trees => marks.any (marksNext · trees)

def groupNext (bracket : Bracket) : Ahead
  | .group found _ :: _ => found = bracket
  | _ => false

def lifetimeNext : Ahead
  | .mark '\'' true :: .word _ :: _ => true
  | _ => false

/-- A literal, a truth value, or a number behind a minus. -/
def literalNext : Ahead
  | .literal _ :: _ => true
  | .word text :: _ => text = "true" || text = "false"
  | .mark '-' _ :: .literal text :: _ => text.toList.head?.any Char.isDigit
  | _ => false

def keywords : List String := [
  "_", "abstract", "as", "async", "await", "become", "box", "break", "const", "continue", "crate",
  "do", "dyn", "else", "enum", "extern", "false", "final", "fn", "for", "if", "impl", "in", "let",
  "loop", "macro", "match", "mod", "move", "mut", "override", "priv", "pub", "ref", "return",
  "Self", "self", "static", "struct", "super", "trait", "true", "try", "type", "typeof", "unsafe",
  "unsized", "use", "virtual", "where", "while", "yield"]

def nameNext : Ahead
  | .word text :: _ => !keywords.contains text
  | _ => false

/-- A lifetime counts as one step. -/
def afterOne : List Tree → List Tree
  | .mark '\'' true :: .word _ :: rest => rest
  | _ :: rest => rest
  | [] => []

def secondNext (ahead : Ahead) : Ahead := fun trees => ahead (afterOne trees)

def thirdNext (ahead : Ahead) : Ahead := secondNext (secondNext ahead)

/-! ### Taking -/

def isNext (ahead : Ahead) : Reader Bool := return ahead (← get)

def refuse {Value : Type} : Reader Value := fun _ => none

/-- Takes a number of trees that satisfy a test. -/
def takeWhen (ahead : Ahead) (count : Nat) : Reader String := do
  let trees ← get
  if ahead trees then
    set (trees.drop count)
    return Tree.texts (trees.take count)
  else refuse

def word (text : String) : Reader String := takeWhen (wordNext text) 1

def anyWord : Reader String := takeWhen anyWordNext 1

def name : Reader String := takeWhen nameNext 1

def marks (text : String) : Reader String := takeWhen (marksNext text) text.length

def lifetime : Reader String := takeWhen lifetimeNext 2

def literal : Reader String := do
  if ← isNext (marksNext "-") then takeWhen literalNext 2 else takeWhen literalNext 1

/-- Takes a group whose content a reader takes whole. -/
def group (bracket : Bracket) (content : Reader String) : Reader String := do
  match ← get with
  | .group found inner :: rest =>
      if found = bracket then
        match content inner with
        | some (text, []) =>
            set rest
            return bracket.enclose text
        | _ => refuse
      else refuse
  | _ => refuse

/-- Takes a group whatever is in it. -/
def anyGroup : Reader String :=
  takeWhen (fun trees => Bracket.all.any (groupNext · trees)) 1

/-! ### Joining -/

/-- Readers one after another. -/
def inOrder : List (Reader String) → Reader String
  | [] => return ""
  | reader :: rest => do return (← reader) ++ (← inOrder rest)

def whenNext (ahead : Ahead) (reader : Reader String) : Reader String := do
  if ← isNext ahead then reader else return ""

def optionalMarks (text : String) : Reader String := whenNext (marksNext text) (marks text)

def optionalWord (text : String) : Reader String := whenNext (wordNext text) (word text)

def repeatUntil (stop : Ahead) (step : Reader String) : Nat → Reader String
  | 0 => refuse
  | bound + 1 => do
      if ← isNext stop then return ""
      else return (← step) ++ (← repeatUntil stop step bound)

/-- Takes step after step until something comes next; every step takes a tree at least. -/
def untilNext (stop : Ahead) (step : Reader String) : Reader String := do
  repeatUntil stop step ((← get).length + 1)

def whileNext (go : Ahead) (step : Reader String) : Reader String :=
  untilNext (fun trees => !go trees) step

/-- Items with a comma after each, which the last one may go without. -/
def commaList (stop : Ahead) (item : Reader String) : Reader String :=
  untilNext stop (inOrder [item, whenNext (fun trees => !stop trees) (marks ",")])

/-- Items to the end of what there is. -/
def items (item : Reader String) : Reader String := commaList nothingNext item

/-- Items with pluses between them, up to something that comes next; a plus may come last. -/
def sumUntil (stop : Ahead) : Nat → Reader String → Reader String
  | 0, _ => refuse
  | bound + 1, item => do
      if ← isNext stop then return ""
      else
        let first ← item
        if ← isNext (marksNext "+") then
          return first ++ (← marks "+") ++ (← sumUntil stop bound item)
        else return first

def sumsUntil (stop : Ahead) (item : Reader String) : Reader String := do
  sumUntil stop ((← get).length + 1) item

end Marshal.Phrase
