import Marshal.Canonical
import Marshal.Step
import Marshal.Tree.Node

/-!
Sinks: what values are written into. A sink is given by its operations on the state of an open
struct and of an open array; the tree document is the sink that keeps what it is given.
-/

namespace Marshal

/-- One place in an open container. `State` is the container's state, `Structs` and `Arrays` the
states of structs and arrays that are opened inside it. -/
structure Outlet (Structs Arrays State : Type) where
  put : Scalar → Step State
  /-- What an absent optional does: nothing under a name, an empty element in an array. -/
  leaveEmpty : Step State
  withStruct : Step Structs → Step State
  withArray : Step Arrays → Step State

structure Sink (Structs Arrays : Type) where
  field : String → Outlet Structs Arrays Structs
  next : Outlet Structs Arrays Arrays

def Scalar.toNode : Scalar → Node
  | .bool value => .bool value
  | .int value => .int value
  | .uint value => .uint value
  | .double value => .double value
  | .text value => .text value

namespace Fields

/-- A field of a document. An opened container replaces what stood under the name at once, and
is filled afterwards. -/
def outlet (name : String) : Outlet Fields Slots Fields where
  put scalar := fun fields => (.ok (), fields.put name scalar.toNode)
  leaveEmpty := .done
  withStruct body := fun fields =>
    let (outcome, child) := body []
    (outcome, fields.put name (.struct child))
  withArray body := fun fields =>
    let (outcome, child) := body .empty
    (outcome, fields.put name (.ofSlots child))

end Fields

namespace Slots

/-- The next element of a document's array. -/
def outlet : Outlet Fields Slots Slots where
  put scalar := fun slots => (.ok (), slots.push scalar.toNode)
  leaveEmpty := fun slots => (.ok (), slots.push .null)
  withStruct body := fun slots =>
    let (outcome, child) := body []
    (outcome, slots.push (.struct child))
  withArray body := fun slots =>
    let (outcome, child) := body .empty
    (outcome, slots.push (.ofSlots child))

end Slots

def treeSink : Sink Fields Slots := ⟨Fields.outlet, Slots.outlet⟩

end Marshal
