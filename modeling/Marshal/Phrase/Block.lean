import Marshal.Phrase.Expression

/-!
Blocks of statements: bindings, expressions, and items, which are not looked into. A statement
ends with a semicolon; one that ends with a block of its own, and the last one, may do without.
-/

namespace Marshal.Phrase

/-- A new name for what an expression yields, or what else to do where the pattern does not fit. -/
def binding (grammar : Grammar) : Reader String :=
  inOrder [word "let", grammar.spell .pattern,
    whenNext (marksNext ":") (inOrder [marks ":", grammar.spell (.type true)]),
    whenNext (marksNext "=") (inOrder [marks "=", grammar.spell (.expression true),
      whenNext (wordNext "else") (inOrder [word "else", grammar.spell .block])]),
    marks ";"]

def itemWords : List String :=
  ["pub", "use", "fn", "mod", "type", "struct", "enum", "trait", "impl", "macro"]

def itemNext : Ahead := fun trees =>
  itemWords.any (wordNext · trees) || wordNext "extern" trees ||
    wordNext "crate" trees && !secondNext (marksNext "::") trees ||
    wordNext "static" trees &&
      secondNext (fun rest => nameNext rest || wordNext "mut" rest) trees ||
    wordNext "const" trees && secondNext (fun rest => nameNext rest ||
      ["_", "fn", "unsafe", "extern"].any (wordNext · rest)) trees ||
    wordNext "unsafe" trees && !secondNext (groupNext .curly) trees ||
    wordNext "async" trees &&
      secondNext (fun rest => ["unsafe", "extern", "fn"].any (wordNext · rest)) trees ||
    wordNext "union" trees && secondNext nameNext trees

/-- An item that ends with a semicolon also where braces stand in it. -/
def lineItemNext : Ahead := fun trees =>
  ["use", "type", "static"].any (wordNext · trees) ||
    wordNext "const" trees &&
      secondNext (fun rest => nameNext rest || wordNext "_" rest) trees

/-- An item up to its semicolon or to its braces. -/
def item (endsWithBraces : Bool) : Nat → Reader String
  | 0 => refuse
  | bound + 1 => do
      if ← isNext (marksNext ";") then marks ";"
      else if endsWithBraces && (← isNext (groupNext .curly)) then anyGroup
      else
        let first ← takeWhen (fun trees => !nothingNext trees) 1
        return first ++ (← item endsWithBraces bound)

/-- A statement, and whether another one can follow it. -/
def statement (grammar : Grammar) : Reader (String × Bool) := do
  let before ← attributes
  if ← isNext (wordNext "let") then return (before ++ (← binding grammar), true)
  else if ← isNext itemNext then
    let ends := !lineItemNext (← get)
    return (before ++ (← item ends ((← get).length + 1)), true)
  else
    let expression ← grammar .statement
    let semicolon ← optionalMarks ";"
    return (before ++ expression.text ++ semicolon,
      semicolon ≠ "" || expression.form = .block || expression.form = .bracedCall)

def statements (grammar : Grammar) : Nat → Reader String
  | 0 => refuse
  | bound + 1 => do
      let empty ← whileNext (marksNext ";") (marks ";")
      if ← isNext nothingNext then return empty
      else
        let (text, isClosed) ← statement grammar
        if (← isNext nothingNext) || isClosed then
          return empty ++ text ++ (← statements grammar bound)
        else refuse

def innerAttributes : Reader String :=
  whileNext (fun trees => marksNext "#" trees && secondNext (marksNext "!") trees)
    (inOrder [marks "#", marks "!", takeWhen (groupNext .square) 1])

def block (grammar : Grammar) : Reader String :=
  group .curly (do
    let before ← innerAttributes
    return before ++ (← statements grammar ((← get).length + 1)))

end Marshal.Phrase
