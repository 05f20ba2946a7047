import Marshal.Write.Sink

/-!
Copying a document into a sink, node by node. A null leaves a place empty, so under a name it is
left out and in an array it keeps its element.
-/

namespace Marshal

section Copying

variable {Structs Arrays : Type} (sink : Sink Structs Arrays)

mutual

def Node.write (node : Node) {State : Type} (outlet : Outlet Structs Arrays State) : Step State :=
  match node with
  | .null => outlet.leaveEmpty
  | .bool value => outlet.put (.bool value)
  | .int value => outlet.put (.int value)
  | .uint value => outlet.put (.uint value)
  | .double value => outlet.put (.double value)
  | .text value => outlet.put (.text value)
  | .struct fields => outlet.withStruct (writeNodeFields fields)
  | .array items _ => outlet.withArray (writeNodeItems items)

def writeNodeFields : List (String × Node) → Step Structs
  | [] => .done
  | (name, node) :: rest => (Node.write node (sink.field name)).andThen (writeNodeFields rest)

def writeNodeItems : List Node → Step Arrays
  | [] => .done
  | node :: rest => (Node.write node sink.next).andThen (writeNodeItems rest)

end

end Copying

end Marshal
