import Marshal.Phrase.Pattern

/-!
Expressions: operands with calls, members and indices applied to them, joined by operators. An
operator that binds less tightly ends the operand of one that binds more tightly; two comparisons
in a row, and a range as an operand, are refused.
-/

namespace Marshal.Phrase

/-! ### Operators -/

/-- How tightly an operator binds. -/
inductive Binding
  | jump
  | assignment
  | range
  | disjunction
  | conjunction
  | comparison
  | bitwiseOr
  | bitwiseExclusive
  | bitwiseAnd
  | shift
  | sum
  | product
  | cast
deriving DecidableEq, Repr

def Binding.rank : Binding → Nat
  | jump => 0
  | assignment => 1
  | range => 2
  | disjunction => 3
  | conjunction => 4
  | comparison => 5
  | bitwiseOr => 6
  | bitwiseExclusive => 7
  | bitwiseAnd => 8
  | shift => 9
  | sum => 10
  | product => 11
  | cast => 12

/-- The operators between two operands; what another operator starts with comes after it. -/
def operators : List (String × Binding) := [
  ("+=", .assignment), ("-=", .assignment), ("*=", .assignment), ("/=", .assignment),
  ("%=", .assignment), ("^=", .assignment), ("&=", .assignment), ("|=", .assignment),
  ("<<=", .assignment), (">>=", .assignment), ("&&", .conjunction), ("||", .disjunction),
  ("<<", .shift), (">>", .shift), ("==", .comparison), ("<=", .comparison), ("!=", .comparison),
  (">=", .comparison), ("+", .sum), ("-", .sum), ("*", .product), ("/", .product),
  ("%", .product), ("^", .bitwiseExclusive), ("&", .bitwiseAnd), ("|", .bitwiseOr),
  ("<", .comparison), (">", .comparison)]

def operator? (trees : List Tree) : Option (String × Binding) :=
  operators.find? fun operator => marksNext operator.1 trees

def assignmentNext : Ahead := fun trees => marksNext "=" trees && !marksNext "=>" trees

/-- How tightly what comes next binds. -/
def nextBinding (trees : List Tree) : Binding :=
  match operator? trees with
  | some (_, binding) => binding
  | none =>
      if assignmentNext trees then .assignment
      else if marksNext ".." trees then .range
      else if wordNext "as" trees then .cast
      else .jump

/-- Where a range can go without its upper end. -/
def rangeStopNext (structures : Bool) : Ahead := fun trees =>
  nothingNext trees || marksNext "." trees && !marksNext ".." trees ||
    !structures && groupNext .curly trees || wordNext "as" trees ||
    anyOfMarksNext [",", ";", "?", "=", "+", "/", "%", "^", ">", "<=", "!=", "-=", "*=", "&=",
      "|=", "<<="] trees

mutual

/-- The operators, from the bound `base` on, and operands that follow an operand of a form. -/
def operations (grammar : Grammar) (structures : Bool) :
    Nat → Form → Binding → Reader Spelled
  | 0, _, _ => refuse
  | count + 1, left, base => do
      let ahead ← get
      let binding := nextBinding ahead
      if left = .range || binding = .jump || binding.rank < base.rank then return ⟨"", left⟩
      else if binding = .comparison && left = .comparison then refuse
      else
        let applied ← operation grammar structures count binding
        let rest ← operations grammar structures count applied.form base
        return ⟨applied.text ++ rest.text, rest.form⟩

/-- One operator and its right operand. -/
def operation (grammar : Grammar) (structures : Bool) : Nat → Binding → Reader Spelled
  | 0, _ => refuse
  | count + 1, binding => do
      match operator? (← get) with
      | some (operator, _) =>
          let text ← marks operator
          let right ← operandFor grammar structures count binding
          return ⟨text ++ right, if binding = .comparison then .comparison else .other⟩
      | none =>
          if binding = .cast then
            return ⟨← inOrder [word "as", grammar.spell (.type false)], .other⟩
          else if binding = .range then
            return ⟨← rangeFrom grammar structures count, .range⟩
          else
            let right ← inOrder [marks "=", operandFor grammar structures count .assignment]
            return ⟨right, .other⟩

/-- An operand of an operator, with all that binds more tightly. -/
def operandFor (grammar : Grammar) (structures : Bool) : Nat → Binding → Reader String
  | 0, _ => refuse
  | count + 1, binding => do
      let first ← grammar (.operand structures)
      return first.text ++ (← tighter grammar structures count first.form binding)

/-- What binds more tightly than an operator, or is assigned from the right. -/
def tighter (grammar : Grammar) (structures : Bool) : Nat → Form → Binding → Reader String
  | 0, _, _ => refuse
  | count + 1, left, binding => do
      let ahead ← get
      let next := nextBinding ahead
      if binding.rank < next.rank || next = .assignment && binding = .assignment then
        let more ← operations grammar structures count left next
        if (← get).length = ahead.length then return more.text
        else return more.text ++ (← tighter grammar structures count more.form binding)
      else return ""

/-- A range from its mark on. -/
def rangeFrom (grammar : Grammar) (structures : Bool) : Nat → Reader String
  | 0 => refuse
  | count + 1 => do
      if ← isNext (marksNext "...") then refuse
      else if ← isNext (marksNext "..=") then
        return (← marks "..=") ++ (← operandFor grammar structures count .range)
      else
        let mark ← marks ".."
        if ← isNext (rangeStopNext structures) then return mark
        else return mark ++ (← operandFor grammar structures count .range)

end

/-- As many steps as operators can take; each tree gives rise to four at most. -/
def stepBound : Reader Nat := do return 4 * (← get).length + 8

def continued (grammar : Grammar) (structures : Bool) (first : Spelled) (base : Binding) :
    Reader Spelled := do
  let rest ← operations grammar structures (← stepBound) first.form base
  return ⟨first.text ++ rest.text, rest.form⟩

def expression (grammar : Grammar) (structures : Bool) : Reader Spelled := do
  continued grammar structures (← grammar (.operand structures)) .jump

/-! ### What is applied to an operand -/

def arguments (grammar : Grammar) : Reader String :=
  group .round (items (grammar.spell (.expression true)))

/-- Positions in a row can be read as a number with a fraction. -/
def positionsNext : Ahead
  | .literal text :: _ => text.toList.all fun character => character.isDigit || character = '.'
  | _ => false

def memberApplied (grammar : Grammar) : Reader String := do
  let point ← marks "."
  if ← isNext positionsNext then return point ++ (← literal)
  else if ← isNext (wordNext "await") then return point ++ (← anyWord)
  else
    let member ← name
    let typed ← whenNext (marksNext "::") (inOrder [marks "::", angled grammar])
    if typed ≠ "" || (← isNext (groupNext .round)) then
      return point ++ member ++ typed ++ (← arguments grammar)
    else return point ++ member

def singlePointNext : Ahead := fun trees => marksNext "." trees && !marksNext ".." trees

def applied (grammar : Grammar) : Nat → Reader String
  | 0 => refuse
  | bound + 1 => do
      if ← isNext (groupNext .round) then
        return (← arguments grammar) ++ (← applied grammar bound)
      else if ← isNext singlePointNext then
        return (← memberApplied grammar) ++ (← applied grammar bound)
      else if ← isNext (groupNext .square) then
        return (← group .square (grammar.spell (.expression true))) ++ (← applied grammar bound)
      else if ← isNext (marksNext "?") then return (← marks "?") ++ (← applied grammar bound)
      else return ""

/-- An operand with what is applied to it, which to a range is nothing. -/
def withApplied (grammar : Grammar) (first : Spelled) : Reader Spelled := do
  if first.form = .range then return first
  else
    let more ← applied grammar ((← get).length + 1)
    return ⟨first.text ++ more, if more = "" then first.form else .other⟩

/-! ### Blocks -/

/-- The expression that a block behind it depends on. -/
def controlling (grammar : Grammar) : Reader String := grammar.spell (.expression false)

def conditional (grammar : Grammar) : Nat → Reader String
  | 0 => refuse
  | bound + 1 => do
      let branch ← inOrder [word "if", controlling grammar, grammar.spell .block]
      if ← isNext (wordNext "else") then
        let start ← word "else"
        if ← isNext (wordNext "if") then return branch ++ start ++ (← conditional grammar bound)
        else return branch ++ start ++ (← grammar.spell .block)
      else return branch

/-- A case that ends with a block needs no comma behind it. -/
def selectionCase (grammar : Grammar) : Reader String := do
  let start ← inOrder [attributes, grammar.spell .alternatives,
    whenNext (wordNext "if") (inOrder [word "if", grammar.spell (.expression true)]), marks "=>"]
  let body ← grammar .body
  let comma ← if body.form = .block || (← isNext nothingNext) then optionalMarks ","
    else marks ","
  return start ++ body.text ++ comma

def selection (grammar : Grammar) : Reader String :=
  inOrder [word "match", controlling grammar,
    group .curly (untilNext nothingNext (selectionCase grammar))]

def loops (grammar : Grammar) : Reader String := do
  if ← isNext (wordNext "while") then
    inOrder [word "while", controlling grammar, grammar.spell .block]
  else if ← isNext (wordNext "for") then
    inOrder [word "for", grammar.spell .alternatives, word "in", controlling grammar,
      grammar.spell .block]
  else if ← isNext (wordNext "loop") then inOrder [word "loop", grammar.spell .block]
  else grammar.spell .block

def labelled (grammar : Grammar) : Reader String := inOrder [lifetime, marks ":", loops grammar]

def closureBinderNext : Ahead := fun trees =>
  wordNext "for" trees && secondNext (marksNext "<") trees

def wordAndBlockNext (word : String) : Ahead := fun trees =>
  wordNext word trees && secondNext (groupNext .curly) trees

/-- Expressions that end with a block of their own. -/
def blockExpressionNext : Ahead := fun trees =>
  ["if", "while", "loop", "match"].any (wordNext · trees) ||
    wordNext "for" trees && !closureBinderNext trees ||
    ["try", "unsafe", "const"].any (wordAndBlockNext · trees) ||
    groupNext .curly trees || lifetimeNext trees

def blockExpression (grammar : Grammar) : Reader String := do
  if ← isNext (wordNext "if") then conditional grammar ((← get).length + 1)
  else if ← isNext (wordNext "match") then selection grammar
  else if ← isNext lifetimeNext then labelled grammar
  else if ← isNext (fun trees => ["try", "unsafe", "const"].any (wordNext · trees)) then
    inOrder [anyWord, grammar.spell .block]
  else loops grammar

/-! ### Operands -/

def fieldValue (grammar : Grammar) : Reader String := do
  let before ← attributes
  if ← isNext (marksNext "..") then
    return before ++ (← marks "..") ++
      (← whenNext (fun trees => !nothingNext trees) (grammar.spell (.expression true)))
  else
    let needsValue ← isNext positionNext
    let member ← memberText
    if needsValue || (← isNext (marksNext ":")) then
      return before ++ member ++ (← marks ":") ++ (← grammar.spell (.expression true))
    else return before ++ member

def pathOperand (grammar : Grammar) (structures : Bool) : Reader Spelled := do
  let path ← qualifiedPath grammar true
  if path.isPlain && (← isNext callNext) then
    let braced := secondNext (groupNext .curly) (← get)
    return ⟨path.text ++ (← call), if braced then .bracedCall else .other⟩
  else if structures && (← isNext (groupNext .curly)) then
    return ⟨path.text ++ (← group .curly (items (fieldValue grammar))), .other⟩
  else return ⟨path.text, .other⟩

def closureNext : Ahead := fun trees =>
  marksNext "|" trees || closureBinderNext trees ||
    ["move", "static", "const", "async"].any (wordNext · trees)

def closureParameter (grammar : Grammar) : Reader String :=
  inOrder [attributes, grammar.spell .pattern,
    whenNext (marksNext ":") (inOrder [marks ":", grammar.spell (.type true)])]

def closure (grammar : Grammar) (structures : Bool) : Reader String := do
  let start ← inOrder [optionalBinder grammar, optionalWord "const", optionalWord "static",
    optionalWord "async", optionalWord "move", marks "|",
    commaList (marksNext "|") (closureParameter grammar), marks "|"]
  if ← isNext (marksNext "->") then
    return start ++ (← inOrder [marks "->", grammar.spell (.type true), grammar.spell .block])
  else return start ++ (← grammar.spell (.expression structures))

/-- Whether an expression can start with what comes next. -/
def expressionNext : Ahead := fun trees =>
  anyWordNext trees || Bracket.all.any (groupNext · trees) || literalNext trees ||
    callNext trees || marksNext "-" trees && !anyOfMarksNext ["-=", "->"] trees ||
    marksNext "*" trees && !marksNext "*=" trees || marksNext "|" trees && !marksNext "|=" trees ||
    marksNext "&" trees && !marksNext "&=" trees || marksNext ".." trees ||
    marksNext "<" trees && !anyOfMarksNext ["<=", "<<="] trees || marksNext "::" trees ||
    lifetimeNext trees || marksNext "#" trees

/-- A value may follow, unless its braces would be taken for a block. -/
def optionalValue (grammar : Grammar) (structures : Bool) : Reader String :=
  whenNext (fun trees => expressionNext trees && (structures || !groupNext .curly trees))
    (grammar.spell (.expression true))

def jump (grammar : Grammar) (structures : Bool) : Reader String := do
  if ← isNext (wordNext "break") then
    inOrder [anyWord, whenNext lifetimeNext lifetime, optionalValue grammar structures]
  else if ← isNext (wordNext "continue") then inOrder [anyWord, whenNext lifetimeNext lifetime]
  else if ← isNext (wordNext "become") then
    inOrder [anyWord, grammar.spell (.expression true)]
  else inOrder [anyWord, optionalValue grammar structures]

def jumpNext : Ahead := fun trees =>
  ["break", "continue", "return", "become", "yield"].any (wordNext · trees)

/-- An array: items, or one item and how often it is repeated. -/
def array (grammar : Grammar) : Reader String := do
  if ← isNext nothingNext then return ""
  else
    let first ← grammar.spell (.expression true)
    if ← isNext (marksNext ";") then
      return first ++ (← marks ";") ++ (← grammar.spell (.expression true))
    else if ← isNext nothingNext then return first
    else return first ++ (← marks ",") ++ (← items (grammar.spell (.expression true)))

def operandPathNext : Ahead := fun trees =>
  pathNext trees || wordNext "try" trees && secondNext (anyOfMarksNext ["!", "::"]) trees

def atom (grammar : Grammar) (structures : Bool) : Reader Spelled := do
  if ← isNext literalNext then return ⟨← literal, .other⟩
  else if ← isNext (fun trees => wordAndBlockNext "async" trees ||
      wordNext "async" trees && secondNext (wordAndBlockNext "move") trees) then
    return ⟨← inOrder [anyWord, optionalWord "move", grammar.spell .block], .other⟩
  else if ← isNext blockExpressionNext then return ⟨← blockExpression grammar, .block⟩
  else if ← isNext closureNext then return ⟨← closure grammar structures, .other⟩
  else if ← isNext operandPathNext then pathOperand grammar structures
  else if ← isNext (groupNext .round) then return ⟨← arguments grammar, .other⟩
  else if ← isNext jumpNext then return ⟨← jump grammar structures, .other⟩
  else if ← isNext (groupNext .square) then return ⟨← group .square (array grammar), .other⟩
  else if ← isNext (wordNext "let") then
    let start ← inOrder [anyWord, grammar.spell .alternatives, marks "="]
    let first ← grammar (.operand false)
    return ⟨start ++ (← continued grammar false first .comparison).text, .other⟩
  else if ← isNext (marksNext "..") then
    return ⟨← rangeFrom grammar structures (← stepBound), .range⟩
  else if ← isNext (wordNext "_") then return ⟨← anyWord, .other⟩
  else refuse

/-- Operators in front of an operand. -/
def operand (grammar : Grammar) (structures : Bool) : Reader Spelled := do
  let before ← attributes
  if ← isNext (marksNext "&") then
    let start ← inOrder [marks "&",
      whenNext (fun trees => wordNext "raw" trees &&
          secondNext (fun rest => wordNext "mut" rest || wordNext "const" rest) trees)
        (inOrder [anyWord, anyWord]),
      optionalWord "mut"]
    return ⟨before ++ start ++ (← grammar.spell (.operand structures)), .other⟩
  else if ← isNext (anyOfMarksNext ["*", "!", "-"]) then
    return ⟨before ++ (← takeWhen (fun _ => true) 1) ++
      (← grammar.spell (.operand structures)), .other⟩
  else
    let whole ← withApplied grammar (← atom grammar structures)
    return ⟨before ++ whole.text, whole.form⟩

/-- An expression that a block it starts with can end, and where `endsAtCall` a macro call with
braces too. -/
def leading (grammar : Grammar) (endsAtCall : Bool) : Reader Spelled := do
  let before ← attributes
  let first ← if ← isNext blockExpressionNext then
      pure ⟨← blockExpression grammar, .block⟩
    else grammar (.operand true)
  if endsAtCall && first.form = .bracedCall then return ⟨before ++ first.text, .bracedCall⟩
  else if first.form ≠ .block then
    let whole ← continued grammar true first .jump
    return ⟨before ++ whole.text, whole.form⟩
  else if ← isNext (fun trees => singlePointNext trees || marksNext "?" trees) then
    let whole ← continued grammar true (← withApplied grammar first) .jump
    return ⟨before ++ whole.text, whole.form⟩
  else return ⟨before ++ first.text, .block⟩

end Marshal.Phrase
