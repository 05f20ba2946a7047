import Marshal.Number.Double
import Marshal.Trail
import Marshal.Tree.Kind

/-!
Tree documents. A struct keeps its fields in the order in which their names were first written;
an array carries the position at which its next element will be read. Writing a name that is
present replaces the node where it stands, so names stay distinct.
-/

namespace Marshal

open Number

inductive Node
  | null
  | bool (value : Bool)
  | int (value : Int64)
  | uint (value : UInt64)
  | double (value : Double)
  | text (value : String)
  | struct (fields : List (String × Node))
  | array (items : List Node) (cursor : Nat)

instance : Inhabited Node := ⟨.null⟩

/-- The fields of a struct in document order. -/
abbrev Fields := List (String × Node)

/-- The elements of an array and the position of the next one to be read. -/
structure Slots where
  items : List Node
  cursor : Nat

namespace Node

def kind : Node → NodeKind
  | .null => .null
  | .bool _ => .bool
  | .int _ => .int
  | .uint _ => .uint
  | .double _ => .double
  | .text _ => .text
  | .struct _ => .struct
  | .array _ _ => .array

def isNull : Node → Bool
  | .null => true
  | _ => false

def ofSlots (slots : Slots) : Node := .array slots.items slots.cursor

end Node

namespace Fields

def names (fields : Fields) : List String := fields.map Prod.fst

def get? : Fields → String → Option Node
  | [], _ => none
  | (name, node) :: rest, wanted => if name = wanted then some node else get? rest wanted

/-- Replaces the node of a present name where it stands and appends an absent name. -/
def put : Fields → String → Node → Fields
  | [], name, node => [(name, node)]
  | (present, old) :: rest, name, node =>
      if present = name then (present, node) :: rest else (present, old) :: put rest name node

def erase : Fields → String → Fields
  | [], _ => []
  | (present, node) :: rest, name =>
      if present = name then rest else (present, node) :: erase rest name

/-- A name counts as holding a value when its node is not null. -/
def holds (fields : Fields) (name : String) : Bool :=
  match fields.get? name with
  | some node => !node.isNull
  | none => false

/-- Of a repeated name the first position and the last node stay. -/
def ofPairs (pairs : List (String × Node)) : Fields :=
  pairs.foldl (fun fields pair => put fields pair.1 pair.2) []

end Fields

namespace Slots

def empty : Slots := ⟨[], 0⟩

def push (slots : Slots) (node : Node) : Slots := ⟨slots.items ++ [node], slots.cursor⟩

def rewind (slots : Slots) : Slots := ⟨slots.items, 0⟩

def isComplete (slots : Slots) : Bool := slots.items.length ≤ slots.cursor

def current? (slots : Slots) : Option Node := slots.items[slots.cursor]?

def currentHolds (slots : Slots) : Bool :=
  match slots.current? with
  | some node => !node.isNull
  | none => false

def advance (slots : Slots) : Slots := ⟨slots.items, slots.cursor + 1⟩

/-- Replaces the element at a position, if there is one. -/
def setAt (slots : Slots) (position : Nat) (node : Node) : Slots :=
  ⟨slots.items.set position node, slots.cursor⟩

end Slots

namespace Node

mutual

/-- Equality of documents: doubles compare as numbers and array positions do not count. -/
def equal : Node → Node → Bool
  | .null, .null => true
  | .bool left, .bool right => left == right
  | .int left, .int right => left == right
  | .uint left, .uint right => left == right
  | .double left, .double right => left.equal right
  | .text left, .text right => left == right
  | .struct left, .struct right => equalFields left right
  | .array left _, .array right _ => equalItems left right
  | _, _ => false

def equalFields : List (String × Node) → List (String × Node) → Bool
  | [], [] => true
  | (leftName, left) :: leftRest, (rightName, right) :: rightRest =>
      leftName == rightName && equal left right && equalFields leftRest rightRest
  | _, _ => false

def equalItems : List Node → List Node → Bool
  | [], [] => true
  | left :: leftRest, right :: rightRest => equal left right && equalItems leftRest rightRest
  | _, _ => false

end

mutual

/-- How many containers are open at the deepest place, this node included. -/
def depth : Node → Nat
  | .struct fields => depthFields fields + 1
  | .array items _ => depthItems items + 1
  | _ => 0

def depthFields : List (String × Node) → Nat
  | [] => 0
  | (_, node) :: rest => max (depth node) (depthFields rest)

def depthItems : List Node → Nat
  | [] => 0
  | node :: rest => max (depth node) (depthItems rest)

end

/-- The node that a trail leads to. -/
def get? : Node → Trail → Option Node
  | node, [] => some node
  | .struct fields, .field name :: rest => (Fields.get? fields name).bind fun node => get? node rest
  | .array items _, .index position :: rest => items[position]?.bind fun node => get? node rest
  | _, _ :: _ => none

/-- Applies a change at the end of a trail; a trail that leads nowhere changes nothing. -/
def modify (change : Node → Node) : Node → Trail → Node
  | node, [] => change node
  | .struct fields, .field name :: rest =>
      match Fields.get? fields name with
      | some node => .struct (Fields.put fields name (modify change node rest))
      | none => .struct fields
  | .array items cursor, .index position :: rest =>
      match items[position]? with
      | some node => .array (items.set position (modify change node rest)) cursor
      | none => .array items cursor
  | node, _ :: _ => node

end Node

end Marshal
