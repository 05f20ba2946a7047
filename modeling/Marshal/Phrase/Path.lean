import Marshal.Phrase.Reader

/-!
Paths, and what stands in them: segments, arguments between angle brackets, bounds, and binders of
lifetimes. Arguments are respelled with the lifetimes first. Types, expressions and blocks are
read by whatever reader is handed in for them.
-/

namespace Marshal.Phrase

/-- Where a bound stands decides what it can be: a hidden type's bounds capture and are
conditional, those of a parameter are conditional, those of an object are neither. -/
inductive BoundPlace
  | object
  | parameter
  | hidden
deriving DecidableEq, Repr

/-- The phrases that stand inside one another. -/
inductive Kind
  /-- A type; `sums` tells whether pluses can add bounds to it. -/
  | type (sums : Bool)
  | bound (place : BoundPlace)
  /-- An argument in angle brackets. -/
  | argument
  /-- An expression; `structures` tells whether braces behind a path belong to it. -/
  | expression (structures : Bool)
  /-- An operand with what is applied to it, but without the operators around it. -/
  | operand (structures : Bool)
  /-- An expression that ends behind the braces of a block or macro call it starts with. -/
  | statement
  /-- An expression that ends behind the braces of a block it starts with. -/
  | body
  | pattern
  /-- Patterns to choose from. -/
  | alternatives
  | block
deriving DecidableEq, Repr

/-- What a phrase turned out to be, as far as that decides what can be next to it. -/
inductive Form
  | lifetime
  /-- A type that is a single segment: an argument can give it a value or bounds. -/
  | segment
  /-- A type that is any other path. -/
  | path
  /-- A type that is one bound. -/
  | bound
  /-- A bound behind a question mark. -/
  | relaxed
  | range
  | comparison
  /-- An expression that ends with a block of its own. -/
  | block
  /-- A macro call with braces. -/
  | bracedCall
  | other
deriving DecidableEq, Repr

structure Spelled where
  text : String
  form : Form

abbrev Grammar := Kind → Reader Spelled

def Grammar.spell (grammar : Grammar) (kind : Kind) : Reader String := Spelled.text <$> grammar kind

/-- A path: its spelling up to the arguments of the last segment, and these. -/
structure PathSpelling where
  front : String
  arguments : String
  isSingle : Bool
  hasArguments : Bool
  isQualified : Bool

namespace PathSpelling

def text (path : PathSpelling) : String := path.front ++ path.arguments

/-- A path of names alone. -/
def isPlain (path : PathSpelling) : Bool := !path.hasArguments && !path.isQualified

/-- Whether arguments in parentheses can follow. -/
def lacksArguments (path : PathSpelling) : Bool :=
  path.arguments = "" || path.arguments = "<>" || path.arguments = "::<>"

/-- The path with arguments in parentheses for its last segment. -/
def calledWith (path : PathSpelling) (arguments : String) : PathSpelling :=
  { path with arguments := arguments, isSingle := false, hasArguments := true }

def extend (path : PathSpelling) (name arguments : String) : PathSpelling :=
  ⟨path.text ++ "::" ++ name, arguments, false, path.hasArguments || arguments ≠ "",
    path.isQualified⟩

end PathSpelling

/-! ### Constants and attributes -/

def attributes : Reader String :=
  whileNext (marksNext "#") (inOrder [marks "#", takeWhen (groupNext .square) 1])

def constant (grammar : Grammar) : Reader String := do
  if ← isNext literalNext then literal
  else if ← isNext (groupNext .curly) then grammar.spell .block
  else name

/-! ### Arguments -/

structure Argument where
  isLifetime : Bool
  text : String
  comma : String

/-- Appends an argument, with a comma in between where the one before has none. -/
def appendArgument (before : String × Bool) (argument : Argument) : String × Bool :=
  let gap := if before.2 then "" else ","
  (before.1 ++ gap ++ argument.text ++ argument.comma, argument.comma ≠ "")

/-- Arguments with the lifetimes first. -/
def spellArguments (arguments : List Argument) : String :=
  let ordered := arguments.filter (·.isLifetime) ++ arguments.filter (!·.isLifetime)
  (ordered.foldl appendArgument ("", true)).1

def argumentsUpTo (grammar : Grammar) : Nat → Reader (List Argument)
  | 0 => refuse
  | bound + 1 => do
      if ← isNext (marksNext ">") then return []
      else
        let argument ← grammar .argument
        let comma ← whenNext (fun trees => !marksNext ">" trees) (marks ",")
        return ⟨argument.form = .lifetime, argument.text, comma⟩ ::
          (← argumentsUpTo grammar bound)

/-- Arguments between angle brackets. -/
def angled (grammar : Grammar) : Reader String := do
  let opening ← marks "<"
  let arguments ← argumentsUpTo grammar ((← get).length + 1)
  return opening ++ spellArguments arguments ++ (← marks ">")

def parenthesizedNext : Ahead := fun trees =>
  groupNext .round trees || marksNext "::" trees && thirdNext (groupNext .round) trees

/-- Types in parentheses, as a function's arguments, and what it yields. -/
def parenthesized (grammar : Grammar) : Reader String :=
  inOrder [group .round (items (grammar.spell (.type true))),
    whenNext (marksNext "->") (inOrder [marks "->", grammar.spell (.type false)])]

/-! ### Segments -/

def bareSegments : List String := ["super", "self", "crate", "try"]

def bareSegmentNext : Ahead := fun trees => bareSegments.any (wordNext · trees)

def argumentsNext (inExpression : Bool) : Ahead := fun trees =>
  !inExpression && marksNext "<" trees && !marksNext "<=" trees && !marksNext "<<=" trees ||
    marksNext "::" trees && thirdNext (marksNext "<") trees

/-- A name with its arguments; in an expression these stand behind double colons only. -/
def segment (grammar : Grammar) (inExpression : Bool) : Reader (String × String) := do
  if ← isNext bareSegmentNext then return (← anyWord, "")
  else
    let name ← if ← isNext (wordNext "Self") then anyWord else name
    let arguments ← whenNext (argumentsNext inExpression)
      (inOrder [optionalMarks "::", angled grammar])
    return (name, arguments)

def segmentsAfter (grammar : Grammar) (inExpression : Bool) (go : Ahead) :
    Nat → PathSpelling → Reader PathSpelling
  | 0, _ => refuse
  | bound + 1, path => do
      if ← isNext go then
        let _ ← marks "::"
        let (name, arguments) ← segment grammar inExpression
        segmentsAfter grammar inExpression go bound (path.extend name arguments)
      else return path

/-- Further segments follow double colons, unless these are followed by parentheses. -/
def furtherSegmentNext : Ahead := fun trees =>
  marksNext "::" trees && !thirdNext (groupNext .round) trees

def path (grammar : Grammar) (inExpression : Bool) : Reader PathSpelling := do
  let colons ← optionalMarks "::"
  let (name, arguments) ← segment grammar inExpression
  segmentsAfter grammar inExpression furtherSegmentNext ((← get).length + 1)
    ⟨colons ++ name, arguments, colons = "", arguments ≠ "", false⟩

/-- A path that may start from a type in angle brackets. -/
def qualifiedPath (grammar : Grammar) (inExpression : Bool) : Reader PathSpelling := do
  if ← isNext (marksNext "<") then
    let qualification ← inOrder [marks "<", grammar.spell (.type true),
      whenNext (wordNext "as") (inOrder [word "as", PathSpelling.text <$> path grammar false]),
      marks ">", marks "::"]
    let (name, arguments) ← segment grammar inExpression
    segmentsAfter grammar inExpression (marksNext "::") ((← get).length + 1)
      ⟨qualification ++ name, arguments, false, arguments ≠ "", true⟩
  else path grammar inExpression

/-- The double colons in front of the parentheses are not kept. -/
def calledPath (grammar : Grammar) (path : PathSpelling) : Reader PathSpelling := do
  if path.lacksArguments && (← isNext parenthesizedNext) then
    let _ ← optionalMarks "::"
    return path.calledWith (← parenthesized grammar)
  else return path

/-! ### Bounds -/

/-- Lifetimes and parameters that a hidden type captures. -/
def capture : Reader String :=
  inOrder [word "use", marks "<", commaList (marksNext ">") (do
    if ← isNext lifetimeNext then lifetime
    else if ← isNext (wordNext "Self") then anyWord
    else name), marks ">"]

def condition : Reader String := do
  if ← isNext (groupNext .square) then group .square (word "const") else optionalWord "const"

/-- A binder's parameter: a lifetime, a type or a constant. -/
def parameter (grammar : Grammar) : Reader String := do
  let before ← attributes
  if ← isNext lifetimeNext then
    return before ++ (← inOrder [lifetime, whenNext (marksNext ":") (inOrder [marks ":",
      sumsUntil (anyOfMarksNext [",", ">"]) lifetime])])
  else if ← isNext (wordNext "const") then
    return before ++ (← inOrder [word "const", name, marks ":", grammar.spell (.type true),
      whenNext (marksNext "=") (inOrder [marks "=", constant grammar])])
  else
    return before ++ (← inOrder [name,
      whenNext (marksNext ":") (inOrder [marks ":",
        sumsUntil (anyOfMarksNext [",", ">", "="]) (grammar.spell (.bound .parameter))]),
      whenNext (marksNext "=") (inOrder [marks "=", grammar.spell (.type true)])])

/-- Parameters that the phrase behind them is about. -/
def binder (grammar : Grammar) : Reader String :=
  inOrder [word "for", marks "<", commaList (marksNext ">") (parameter grammar), marks ">"]

def optionalBinder (grammar : Grammar) : Reader String := whenNext (wordNext "for") (binder grammar)

/-- A bound by name. What is relaxed by a question mark has no binder. -/
def traitBound (grammar : Grammar) (place : BoundPlace) : Reader String := do
  let binder ← optionalBinder grammar
  let condition ← condition
  let relaxed ← optionalMarks "?"
  if condition ≠ "" && place = .object || binder ≠ "" && relaxed ≠ "" then refuse
  else
    let path ← calledPath grammar (← path grammar false)
    return binder ++ condition ++ relaxed ++ path.text

def bound (grammar : Grammar) (place : BoundPlace) : Reader Spelled := do
  if ← isNext lifetimeNext then return ⟨← lifetime, .lifetime⟩
  else if ← isNext (wordNext "use") then
    if place = .hidden then return ⟨← capture, .lifetime⟩ else refuse
  else if ← isNext (groupNext .round) then
    return ⟨← group .round (traitBound grammar place), .bound⟩
  else return ⟨← traitBound grammar place, .bound⟩

end Marshal.Phrase
