import Marshal.Phrase.Path

/-!
Types: paths, tuples, slices and arrays, references and pointers, functions, macro calls, and sums
of bounds. A plus adds a bound to a type only where sums are allowed, which they
are not behind a reference, a pointer or an arrow.
-/

namespace Marshal.Phrase

/-! ### Sums of bounds -/

/-- Bounds joined by pluses. -/
structure BoundSum where
  text : String
  hasTrait : Bool
  isSingle : Bool

namespace BoundSum

def ofBound (bound : Spelled) : BoundSum := ⟨bound.text, bound.form = .bound, true⟩

def add (sum : BoundSum) (plus : String) (bound : Option Spelled) : BoundSum :=
  match bound with
  | some bound => ⟨sum.text ++ plus ++ bound.text, sum.hasTrait || bound.form = .bound, false⟩
  | none => ⟨sum.text ++ plus, sum.hasTrait, false⟩

/-- A type that is one bound can be joined with others when it stands in parentheses. -/
def form (sum : BoundSum) : Form := if sum.isSingle then .bound else .other

end BoundSum

def boundNext (place : BoundPlace) : Ahead := fun trees =>
  anyWordNext trees || anyOfMarksNext ["::", "?"] trees || lifetimeNext trees ||
    groupNext .round trees || place ≠ .object && groupNext .square trees

/-- Further bounds; a plus may come last, unless `needsBound` tells that it may not. -/
def addBounds (grammar : Grammar) (place : BoundPlace) (needsBound : Bool) :
    Nat → BoundSum → Reader BoundSum
  | 0, _ => refuse
  | count + 1, sum => do
      if ← isNext (marksNext "+") then
        let plus ← marks "+"
        if needsBound || (← isNext (boundNext place)) then
          let bound ← grammar (.bound place)
          addBounds grammar place needsBound count (sum.add plus (some bound))
        else return sum.add plus none
      else return sum

/-- A first bound and, where sums are allowed, those added to it. -/
def boundSum (grammar : Grammar) (place : BoundPlace) (sums : Bool) : Reader BoundSum := do
  let first := BoundSum.ofBound (← grammar (.bound place))
  if sums then addBounds grammar place false ((← get).length + 1) first else return first

/-- Bounds of which one at least is no lifetime. -/
def traitSum (grammar : Grammar) (place : BoundPlace) (sums : Bool) : Reader BoundSum := do
  let sum ← boundSum grammar place sums
  if sum.hasTrait then return sum else refuse

/-! ### Functions -/

def selfParameterNext : Ahead := fun trees =>
  wordNext "mut" trees && secondNext (wordNext "self") trees

def singleColonNext : Ahead := fun trees => marksNext ":" trees && !marksNext "::" trees

/-- A parameter's name, where one is given. Only the first parameter can be called `self`. -/
def parameterNameNext (isFirst : Bool) : Ahead := fun trees =>
  (nameNext trees || wordNext "_" trees || isFirst && wordNext "self" trees) &&
    secondNext singleColonNext trees

def parameterType (grammar : Grammar) (isFirst : Bool) : Reader String := do
  let changing ← whenNext (fun trees => isFirst && selfParameterNext trees) (word "mut")
  if ← isNext (parameterNameNext isFirst) then
    return changing ++ (← inOrder [anyWord, marks ":", grammar.spell (.type true)])
  else if changing ≠ "" then return changing ++ (← word "self")
  else grammar.spell (.type true)

def ellipsisNext : Ahead := fun trees =>
  marksNext "..." trees || (nameNext trees || wordNext "_" trees) &&
    secondNext (marksNext ":") trees && thirdNext (marksNext "...") trees

/-- The last parameter can stand for any number of further ones. -/
def ellipsis : Reader String :=
  inOrder [whenNext anyWordNext (inOrder [anyWord, marks ":"]), marks "...", optionalMarks ","]

def parameterTypes (grammar : Grammar) (isFirst : Bool) : Nat → Reader String
  | 0 => refuse
  | bound + 1 => do
      if ← isNext nothingNext then return ""
      else
        let before ← attributes
        if ← isNext ellipsisNext then return before ++ (← ellipsis)
        else
          let type ← parameterType grammar isFirst
          if ← isNext nothingNext then return before ++ type
          else
            return before ++ type ++ (← marks ",") ++ (← parameterTypes grammar false bound)

def functionNext : Ahead := fun trees => ["fn", "unsafe", "extern"].any (wordNext · trees)

def textNext : Ahead
  | .literal text :: _ => text.toList.head? = some '"' || text.startsWith "r\"" ||
      text.startsWith "r#"
  | _ => false

/-- A function's type without the binder in front of it. -/
def function (grammar : Grammar) : Reader String :=
  inOrder [optionalWord "unsafe",
    whenNext (wordNext "extern") (inOrder [word "extern", whenNext textNext literal]),
    word "fn",
    group .round (do parameterTypes grammar true ((← get).length + 1)),
    whenNext (marksNext "->") (inOrder [marks "->", grammar.spell (.type false)])]

/-! ### Parentheses and brackets -/

/-- What stands in parentheses, and the form of it where it is a single type. -/
def parenthesizedTypes (grammar : Grammar) : Reader Spelled := do
  if ← isNext nothingNext then return ⟨"", .other⟩
  else if ← isNext lifetimeNext then
    return ⟨(← traitSum grammar .object true).text, .other⟩
  else if ← isNext (marksNext "?") then return ⟨(← grammar (.bound .object)).text, .relaxed⟩
  else
    let first ← grammar (.type true)
    if ← isNext nothingNext then return first
    else
      return ⟨first.text ++ (← marks ",") ++ (← items (grammar.spell (.type true))), .other⟩

/-- A group of which more than its text is known. -/
def formedGroup (bracket : Bracket) (content : Reader Spelled) : Reader Spelled := do
  match ← get with
  | .group found inner :: rest =>
      if found = bracket then
        match content inner with
        | some (spelled, []) =>
            set rest
            return ⟨bracket.enclose spelled.text, spelled.form⟩
        | _ => refuse
      else refuse
  | _ => refuse

/-- A relaxed bound in parentheses is a type, and any plus behind it adds a bound; other bounds in
parentheses are joined with others where sums are allowed. -/
def parenthesizedType (grammar : Grammar) (sums : Bool) : Reader Spelled := do
  let inner ← formedGroup .round (parenthesizedTypes grammar)
  let isBound := [Form.segment, .path, .bound].contains inner.form
  let plus ← isNext (marksNext "+")
  if inner.form = .relaxed || isBound && sums && plus then
    let sum ← addBounds grammar .object true ((← get).length + 1) ⟨inner.text, true, true⟩
    return ⟨sum.text, sum.form⟩
  else return ⟨inner.text, .other⟩

def bracketedType (grammar : Grammar) : Reader String :=
  group .square (inOrder [grammar.spell (.type true),
    whenNext (marksNext ";") (inOrder [marks ";", grammar.spell (.expression true)])])

/-! ### Types -/

def pathNext : Ahead := fun trees =>
  nameNext trees || anyOfMarksNext ["::", "<"] trees ||
    ["super", "self", "Self", "crate"].any (wordNext · trees)

def callNext : Ahead := fun trees => marksNext "!" trees && !marksNext "!=" trees

/-- A macro call from the exclamation mark on. -/
def call : Reader String := inOrder [marks "!", anyGroup]

/-- A path as a type, or as the first bound of a sum where a binder stands in front. -/
def pathType (grammar : Grammar) (binder : String) (sums : Bool) : Reader Spelled := do
  let path ← calledPath grammar (← qualifiedPath grammar false)
  if path.isQualified then return ⟨path.text, .other⟩
  else if path.isPlain && (← isNext callNext) then return ⟨path.text ++ (← call), .other⟩
  else if binder ≠ "" || sums && (← isNext (marksNext "+")) then
    let first : BoundSum := ⟨binder ++ path.text, true, true⟩
    let sum ← if sums then addBounds grammar .object false ((← get).length + 1) first
      else pure first
    return ⟨sum.text, sum.form⟩
  else return ⟨path.text, if path.isSingle then .segment else .path⟩

def type (grammar : Grammar) (sums : Bool) : Reader Spelled := do
  let binder ← optionalBinder grammar
  if ← isNext functionNext then return ⟨binder ++ (← function grammar), .other⟩
  else if binder ≠ "" then
    if ← isNext (fun trees => pathNext trees && !anyOfMarksNext ["::", "<"] trees) then
      pathType grammar binder sums
    else refuse
  else if ← isNext (groupNext .round) then parenthesizedType grammar sums
  else if ← isNext pathNext then pathType grammar "" sums
  else if ← isNext (wordNext "dyn") then
    let start ← inOrder [word "dyn", optionalMarks "*"]
    return ⟨start ++ (← traitSum grammar .object sums).text, .other⟩
  else if ← isNext (groupNext .square) then return ⟨← bracketedType grammar, .other⟩
  else if ← isNext (marksNext "*") then
    return ⟨← inOrder [marks "*", do
      if ← isNext (wordNext "mut") then anyWord else word "const",
      grammar.spell (.type false)], .other⟩
  else if ← isNext (marksNext "&") then
    return ⟨← inOrder [marks "&", whenNext lifetimeNext lifetime, optionalWord "mut",
      grammar.spell (.type false)], .other⟩
  else if ← isNext (marksNext "!") then return ⟨← marks "!", .other⟩
  else if ← isNext (wordNext "impl") then
    return ⟨(← word "impl") ++ (← traitSum grammar .hidden sums).text, .other⟩
  else if ← isNext (wordNext "_") then return ⟨← anyWord, .other⟩
  else if ← isNext lifetimeNext then
    return ⟨(← traitSum grammar .object true).text, .other⟩
  else refuse

/-! ### Arguments -/

/-- What an argument is given for a name: a value or a type. -/
def given (grammar : Grammar) : Reader String := do
  if ← isNext (fun trees => literalNext trees || groupNext .curly trees) then constant grammar
  else grammar.spell (.type true)

/-- An argument: a lifetime, a constant, a type, or a name that is given one or bounded. -/
def argument (grammar : Grammar) : Reader Spelled := do
  if ← isNext (fun trees => lifetimeNext trees && !secondNext (marksNext "+") trees) then
    return ⟨← lifetime, .lifetime⟩
  else if ← isNext (fun trees => literalNext trees || groupNext .curly trees) then
    return ⟨← constant grammar, .other⟩
  else
    let type ← grammar (.type true)
    if type.form = .segment && (← isNext (marksNext "=")) then
      return ⟨type.text ++ (← marks "=") ++ (← given grammar), .other⟩
    else if type.form = .segment && (← isNext (marksNext ":")) then
      return ⟨type.text ++ (← marks ":") ++ (← sumsUntil (anyOfMarksNext [",", ">"])
        (grammar.spell (.bound .parameter))), .other⟩
    else return ⟨type.text, .other⟩

end Marshal.Phrase
