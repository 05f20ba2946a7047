import Marshal.Canonical
import Marshal.Tree.Node

/-!
Sources: what values are read from. An inlet is one place to read from, given by its operations
on the state of its container. A struct's field stays where it is; an array's next element is
used up by looking at it, also when what is found there is of the wrong kind.
-/

namespace Marshal

structure Inlet (State : Type) where
  /-- Whether no element is left, which a named field never says. -/
  isExhausted : State → Bool
  /-- Whether something other than null is there. -/
  holdsValue : State → Bool
  position : State → Nat
  skip : State → Except Fault Unit × State
  value : State → Except Fault AnyValue × State
  openStruct : State → Except Fault Fields × State
  openArray : State → Except Fault Slots × State
  /-- Puts an opened struct back, into the state that opening it has left. -/
  storeStruct : Fields → State → State
  storeArray : Slots → State → State

namespace Node

def scalarValue : Node → Except Fault AnyValue
  | .null => .ok .none
  | .bool value => .ok (Scalar.held (.bool value))
  | .int value => .ok (Scalar.held (.int value))
  | .uint value => .ok (Scalar.held (.uint value))
  | .double value => .ok (Scalar.held (.double value))
  | .text value => .ok (Scalar.held (.text value))
  | .struct fields => .error (.of (.scalarExpected (Node.struct fields).kind))
  | .array items cursor => .error (.of (.scalarExpected (Node.array items cursor).kind))

def structFields : Node → Except Fault Fields
  | .struct fields => .ok fields
  | node => .error (.of (.structExpected node.kind))

/-- An array is read from its first element whenever it is opened. -/
def arraySlots : Node → Except Fault Slots
  | .array items _ => .ok ⟨items, 0⟩
  | node => .error (.of (.arrayExpected node.kind))

end Node

namespace Fields

def find (fields : Fields) (name : String) : Except Fault Node :=
  match fields.get? name with
  | some node => .ok node
  | none => .error (.of (.missingField name))

/-- A field of a document, found by its name. -/
def inlet (name : String) : Inlet Fields where
  isExhausted _ := false
  holdsValue fields := fields.holds name
  position _ := 0
  skip fields := (.ok (), fields)
  value fields := ((fields.find name).bind Node.scalarValue, fields)
  openStruct fields := ((fields.find name).bind Node.structFields, fields)
  openArray fields := ((fields.find name).bind Node.arraySlots, fields)
  storeStruct child fields := fields.put name (.struct child)
  storeArray child fields := fields.put name (.ofSlots child)

end Fields

namespace Slots

/-- Takes the element at the position and moves past it. -/
def next (slots : Slots) : Except Fault Node × Slots :=
  match slots.current? with
  | some node => (.ok node, slots.advance)
  | none => (.error (.of (.slotMissing slots.items.length slots.cursor)), slots)

/-- The next element of a document's array. -/
def inlet : Inlet Slots where
  isExhausted slots := slots.isComplete
  holdsValue slots := slots.currentHolds
  position slots := slots.cursor
  skip slots := (slots.next.1.map fun _ => (), slots.next.2)
  value slots := (slots.next.1.bind Node.scalarValue, slots.next.2)
  openStruct slots := (slots.next.1.bind Node.structFields, slots.next.2)
  openArray slots := (slots.next.1.bind Node.arraySlots, slots.next.2)
  storeStruct child slots := slots.setAt (slots.cursor - 1) (.struct child)
  storeArray child slots := slots.setAt (slots.cursor - 1) (.ofSlots child)

/-- Takes values one after the other, each with its outcome. -/
def take : Nat → Slots → List (Except Fault AnyValue) × Slots
  | 0, slots => ([], slots)
  | count + 1, slots =>
      let (outcome, next) := inlet.value slots
      let (others, left) := take count next
      (outcome :: others, left)

end Slots

end Marshal
