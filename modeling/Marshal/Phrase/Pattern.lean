import Marshal.Phrase.Type

/-!
Patterns: names, literals and ranges, references, tuples, slices, and structures with patterns for
their fields.
-/

namespace Marshal.Phrase

def rangeMarks : List String := ["..=", "...", ".."]

def rangeMark : Reader String := do
  if ← isNext (marksNext "..=") then marks "..="
  else if ← isNext (marksNext "...") then marks "..."
  else marks ".."

def choiceNext : Ahead := fun trees =>
  marksNext "|" trees && !marksNext "||" trees && !marksNext "|=" trees

/-- Patterns to choose from, with a bar between them and perhaps one in front. -/
def alternatives (grammar : Grammar) : Reader String :=
  inOrder [whenNext choiceNext (marks "|"), grammar.spell .pattern,
    whileNext choiceNext (inOrder [marks "|", grammar.spell .pattern])]

/-- Where a range of values can go without its upper end. -/
def openRangeNext : Ahead := fun trees =>
  nothingNext trees || anyOfMarksNext ["|", "=", ",", ";"] trees || singleColonNext trees ||
    wordNext "if" trees

/-- An end of a range: a literal, a path or a block that is evaluated beforehand. -/
def rangeEnd (grammar : Grammar) : Reader String := do
  if ← isNext openRangeNext then return ""
  else if ← isNext literalNext then literal
  else if ← isNext (wordNext "const") then inOrder [word "const", grammar.spell .block]
  else PathSpelling.text <$> qualifiedPath grammar true

def rangeAfter (grammar : Grammar) (start : String) : Reader String := do
  let mark ← rangeMark
  let last ← rangeEnd grammar
  if last = "" && mark ≠ ".." then refuse else return start ++ mark ++ last

def isWhole (text : String) : Bool := !text.isEmpty && text.toList.all Char.isDigit

def positionNext : Ahead
  | .literal text :: _ => isWhole text
  | _ => false

/-- A field by name or by position. -/
def memberText : Reader String := do
  if ← isNext positionNext then literal else name

def bindingMarks : Reader String := inOrder [optionalWord "ref", optionalWord "mut"]

def fieldPattern (grammar : Grammar) : Reader String := do
  let before ← attributes
  if ← isNext (marksNext "..") then return before ++ (← marks "..")
  else
    let binding ← inOrder [optionalWord "box", bindingMarks]
    let needsPattern ← isNext positionNext
    let member ← if binding = "" then memberText else name
    if needsPattern || binding = "" && (← isNext (marksNext ":")) then
      return before ++ member ++ (← marks ":") ++ (← grammar.spell .alternatives)
    else return before ++ binding ++ member

def pathPattern (grammar : Grammar) : Reader String := do
  let path ← qualifiedPath grammar true
  if path.isPlain && (← isNext callNext) then return path.text ++ (← call)
  else if ← isNext (groupNext .curly) then
    return path.text ++ (← group .curly (items (fieldPattern grammar)))
  else if ← isNext (groupNext .round) then
    return path.text ++ (← group .round (items (grammar.spell .alternatives)))
  else if ← isNext (marksNext "..") then rangeAfter grammar path.text
  else return path.text

/-- A name that more than a name follows starts a path. -/
def pathPatternNext : Ahead := fun trees =>
  nameNext trees && secondNext (fun rest => anyOfMarksNext ["::", "!", ".."] rest ||
      groupNext .curly rest || groupNext .round rest) trees ||
    wordNext "self" trees && secondNext (marksNext "::") trees ||
    anyOfMarksNext ["::", "<"] trees || ["Self", "super", "crate"].any (wordNext · trees)

def pattern (grammar : Grammar) : Reader String := do
  if ← isNext pathPatternNext then pathPattern grammar
  else if ← isNext (wordNext "_") then anyWord
  else if ← isNext (wordNext "box") then inOrder [anyWord, grammar.spell .pattern]
  else if ← isNext (fun trees => literalNext trees || wordNext "const" trees) then
    let start ← rangeEnd grammar
    if ← isNext (marksNext "..") then rangeAfter grammar start else return start
  else if ← isNext (fun trees =>
      nameNext trees || ["ref", "mut", "self"].any (wordNext · trees)) then
    inOrder [bindingMarks, do if ← isNext (wordNext "self") then anyWord else name,
      whenNext (marksNext "@") (inOrder [marks "@", grammar.spell .pattern])]
  else if ← isNext (marksNext "&") then
    inOrder [marks "&", optionalWord "mut", grammar.spell .pattern]
  else if ← isNext (groupNext .round) then group .round (items (grammar.spell .alternatives))
  else if ← isNext (groupNext .square) then group .square (items (grammar.spell .alternatives))
  else if ← isNext (fun trees => marksNext ".." trees && !marksNext "..." trees) then
    rangeAfter grammar ""
  else refuse

end Marshal.Phrase
