import Marshal.Canonical
import Marshal.Exact.Document
import Marshal.Read.Source
import Marshal.Report.Fault
import Marshal.Tree.Text
import Marshal.Write.Recorder

/-!
What is found in documents, and what is written into sinks, as documents.
-/

namespace Marshal.Report

def document (fields : Fields) : Node := Exact.ofNode (.struct fields)

def slots (slots : Slots) : Node := Exact.ofNode (.ofSlots slots)

def found : Option Node → Fields
  | none => [("found", .bool false)]
  | some node =>
      let (fields, items) := match node with
        | .struct fields => (Node.count fields.length, Node.null)
        | .array items _ => (Node.null, Node.count items.length)
        | _ => (Node.null, Node.null)
      [("found", .bool true), ("node", Exact.ofNode node), ("kind", .text node.kind.name),
        ("null", .bool node.isNull), ("struct", fields), ("array", items)]

/-- The node that a container's value would be written as. -/
def heldNode (container : AnyValue) : Node :=
  match container.held? with
  | none => .null
  | some ⟨.primitive .bool, value⟩ => .bool value.asBool
  | some ⟨.primitive (.int kind), value⟩ =>
      if kind.isSigned then .int (.ofInt value.asInt) else .uint (.ofNat value.asInt.toNat)
  | some ⟨.primitive .double, value⟩ => .double value.asDouble
  | some held => .text held.value.asText

def taken : Except Fault AnyValue → Fields
  | .ok container =>
      [("held", Exact.ofNode (heldNode container)), ("type", .text container.typeName),
        ("has", .bool container.hasValue)]
  | .error found => fault found

/-- An array opened at a place, and values taken from it one after the other. -/
def takenFrom {State : Type} (inlet : Inlet State) (count : Nat) (state : State) :
    Fields × State :=
  match inlet.openArray state with
  | (.error found, next) => (fault found, next)
  | (.ok opened, next) =>
      let (values, left) := Slots.take count opened
      ([("start", .count opened.cursor), ("read", .list (values.map fun value =>
          .struct (taken value))), ("index", .count left.cursor),
        ("complete", .bool left.isComplete)], inlet.storeArray left next)

def written (outcome : Except Fault Unit) (fields : Fields) : Fields :=
  Report.outcome outcome ++ [("doc", document fields)]

def pushed (outcome : Except Fault Unit) (list : Slots) : Fields :=
  Report.outcome outcome ++ [("list", slots list)]

def fieldNames : Except Fault Fields → Fields
  | .ok fields => [("names", .texts fields.names)]
  | .error found => fault found

def dump (fields : Fields) : Fields :=
  match fields.dump with
  | .ok text => [("text", .text text)]
  | .error found => fault found

/-- A document's text read back: whether it is the same document, and how long the text is. -/
def roundTrip (fields : Fields) : Fields :=
  match fields.dump with
  | .error found => fault found
  | .ok text =>
      let (read, document) := Fields.setText [] text
      outcome read ++ [("equal", .bool ((Node.struct document).equal (.struct fields))),
        ("chars", .count text.length)]

def callKind : CallKind → String × Node
  | .scalar (.bool value) => ("bool", .bool value)
  | .scalar (.int value) => ("i64", .text (toString value.toInt))
  | .scalar (.uint value) => ("u64", .text (toString value.toNat))
  | .scalar (.double value) => ("f64", .text (Exact.doubleText value))
  | .scalar (.text value) => ("str", .text value)
  | .empty => ("empty", .null)
  | .openStruct handle => ("struct", .count handle)
  | .openArray handle => ("array", .count handle)

def call (call : SinkCall) : Node :=
  let (what, value) := callKind call.kind
  .list [.count call.handle, .text what, .ofOption (call.name.map Node.text), value]

/-- What a recording sink has recorded. -/
def recorded (result : Except Fault Unit × Recorder) : Fields :=
  outcome result.1 ++ [("calls", .list (result.2.calls.map call))]

end Marshal.Report
