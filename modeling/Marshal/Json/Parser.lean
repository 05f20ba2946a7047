import Marshal.Json.Token
import Marshal.Tree.Node

/-!
Reading documents from JSON text by a machine over tokens. The containers that wait for a value
form a stack of frames; the machine's expectation holds what has been read of the container whose
next entry has not begun. No more than `nestingLimit` containers are open at once. A text is one
value and nothing after it.
-/

namespace Marshal.Json

/-- A container that waits for a value: an array with the items before it in reverse, or a struct
with the entries before it and the name that the value goes to. -/
inductive Frame
  | items (reversed : List Node)
  | entry (done : Fields) (name : String)

/-- What the next token may be. -/
inductive Expect
  | value
  | firstItem
  | nextItem (reversed : List Node)
  | afterItem (reversed : List Node)
  | firstName
  | nextName (done : Fields)
  | colon (done : Fields) (name : String)
  | afterEntry (done : Fields)

structure State where
  expect : Expect
  frames : List Frame

inductive Step
  | running (state : State)
  | finished (node : Node)
  | refused (found : FoundFlaw)

def nestingLimit : Nat := 127

/-- A value has been read: it goes into the innermost open container, or it is the result. -/
def deliver (node : Node) : List Frame → Step
  | [] => .finished node
  | .items reversed :: outer => .running ⟨.afterItem (node :: reversed), outer⟩
  | .entry done name :: outer => .running ⟨.afterEntry (done.put name node), outer⟩

/-- A container begins inside of those that wait for it. -/
def begin (located : Located) (expect : Expect) (frames : List Frame) : Step :=
  if frames.length < nestingLimit then .running ⟨expect, frames⟩
  else .refused (located.found .tooDeep)

def takeValue (located : Located) (frames : List Frame) : Step :=
  match located.token with
  | .null => deliver .null frames
  | .bool value => deliver (.bool value) frames
  | .int value => deliver (.int value) frames
  | .uint value => deliver (.uint value) frames
  | .double value => deliver (.double value) frames
  | .text value => deliver (.text value) frames
  | .openStruct => begin located .firstName frames
  | .openArray => begin located .firstItem frames
  | .invalid found => .refused found
  | _ => .refused (located.found .valueExpected)

/-- A name that is not well formed is refused for its own flaw, anything else for being none. -/
def refuseName (located : Located) : Step :=
  match located.token, located.start with
  | .invalid found, '"' :: _ => .refused found
  | _, _ => .refused (located.found .nameExpected)

def step (state : State) (located : Located) : Step :=
  match state.expect, located.token with
  | .value, _ => takeValue located state.frames
  | .firstItem, .closeArray => deliver (.array [] 0) state.frames
  | .firstItem, _ => takeValue located (.items [] :: state.frames)
  | .nextItem _, .closeArray => .refused (located.found .trailingComma)
  | .nextItem reversed, _ => takeValue located (.items reversed :: state.frames)
  | .afterItem reversed, .comma => .running ⟨.nextItem reversed, state.frames⟩
  | .afterItem reversed, .closeArray => deliver (.array reversed.reverse 0) state.frames
  | .afterItem _, _ => .refused (located.found .itemEndExpected)
  | .firstName, .text name => .running ⟨.colon [] name, state.frames⟩
  | .firstName, .closeStruct => deliver (.struct []) state.frames
  | .firstName, _ => refuseName located
  | .nextName done, .text name => .running ⟨.colon done name, state.frames⟩
  | .nextName _, .closeStruct => .refused (located.found .trailingComma)
  | .nextName _, _ => refuseName located
  | .colon done name, .colon => .running ⟨.value, .entry done name :: state.frames⟩
  | .colon _ _, _ => .refused (located.found .colonExpected)
  | .afterEntry done, .comma => .running ⟨.nextName done, state.frames⟩
  | .afterEntry done, .closeStruct => deliver (.struct done) state.frames
  | .afterEntry _, _ => .refused (located.found .entryEndExpected)

/-- What is wrong with a text that ends here. -/
def Expect.unfinished : Expect → Flaw
  | .value | .nextItem _ | .nextName _ => .unfinishedValue
  | .firstItem | .afterItem _ => .unfinishedArray
  | .firstName | .colon _ _ | .afterEntry _ => .unfinishedStruct

/-- Runs until a value is complete; the tokens after it are given back. -/
def run : State → List Located → Except FoundFlaw (Node × List Located)
  | state, [] => .error (.atEnd state.expect.unfinished)
  | state, located :: rest =>
      match step state located with
      | .running next => run next rest
      | .finished node => .ok (node, rest)
      | .refused found => .error found

/-- The value at the start of a text, and the tokens after it. -/
def leadingValue [NumberReader] (text : String) : Except FoundFlaw (Node × List Located) :=
  run ⟨.value, []⟩ (tokens text.toList)

inductive Problem
  | malformed (flaw : Flaw) (place : Place)
  | structExpected (found : NodeKind)
  | arrayExpected (found : NodeKind)
deriving DecidableEq, Repr

def Problem.message : Problem → String
  | .malformed flaw place => s!"{flaw.message} at line {place.line} column {place.column}"
  | .structExpected found => "expected a struct document, found " ++ found.name
  | .arrayExpected found => "expected an array document, found " ++ found.name

/-- The problem of a text in which a flaw has been found. -/
def FoundFlaw.problem (found : FoundFlaw) (text : String) : Problem :=
  .malformed found.flaw (.ofBytesLeft text found.left)

/-- A text ends with the value it starts with. -/
def ended (text : String) : List Located → Except Problem Unit
  | [] => .ok ()
  | next :: _ => .error ((next.found .trailingText).problem text)

def readNode [NumberReader] (text : String) : Except Problem Node :=
  match leadingValue text with
  | .ok (node, rest) => (ended text rest).map fun _ => node
  | .error found => .error (found.problem text)

/-- What kind of value a text starts with is decided before anything after it is looked at. -/
def readStruct [NumberReader] (text : String) : Except Problem Fields :=
  match leadingValue text with
  | .ok (.struct fields, rest) => (ended text rest).map fun _ => fields
  | .ok (node, _) => .error (.structExpected node.kind)
  | .error found => .error (found.problem text)

def readArray [NumberReader] (text : String) : Except Problem Slots :=
  match leadingValue text with
  | .ok (.array items cursor, rest) => (ended text rest).map fun _ => ⟨items, cursor⟩
  | .ok (node, _) => .error (.arrayExpected node.kind)
  | .error found => .error (found.problem text)

end Marshal.Json
