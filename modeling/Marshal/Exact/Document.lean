import Marshal.Exact.Word
import Marshal.Tree.View

/-!
The exact form of documents. A document is given by a document in which every number is a text,
marked with its kind, so nothing is lost to a reader of plain numbers.
-/

namespace Marshal.Exact

open Number

def marked (mark : String) (content : Node) : Node := .struct [(mark, content)]

mutual

def ofNode : Node → Node
  | .null => .null
  | .bool value => .bool value
  | .text value => .text value
  | .int value => marked "i" (.text (toString value.toInt))
  | .uint value => marked "u" (.text (toString value.toNat))
  | .double value => marked "d" (.text (doubleText value))
  | .struct fields => marked "s" (.list (ofFields fields))
  | .array items _ => marked "a" (.list (ofItems items))

def ofFields : List (String × Node) → List Node
  | [] => []
  | (name, node) :: rest => .list [.text name, ofNode node] :: ofFields rest

def ofItems : List Node → List Node
  | [] => []
  | node :: rest => ofNode node :: ofItems rest

end

mutual

def node? : Node → Option Node
  | .null => some .null
  | .bool value => some (.bool value)
  | .text value => some (.text value)
  | .struct [("i", .text digits)] => digits.toInt?.map fun number => .int (.ofInt number)
  | .struct [("u", .text digits)] => digits.toNat?.map fun number => .uint (.ofNat number)
  | .struct [("d", .text word)] => (double? word).map Node.double
  | .struct [("s", .array pairs _)] =>
      (fields? pairs).map fun found => .struct (Fields.ofPairs found)
  | .struct [("a", .array items _)] => (items? items).map Node.list
  | _ => none

def fields? : List Node → Option (List (String × Node))
  | [] => some []
  | .array [.text name, node] _ :: rest =>
      match node? node, fields? rest with
      | some read, some others => some ((name, read) :: others)
      | _, _ => none
  | _ :: _ => none

def items? : List Node → Option (List Node)
  | [] => some []
  | node :: rest =>
      match node? node, items? rest with
      | some read, some others => some (read :: others)
      | _, _ => none

end

def document? (node : Node) : Option Fields :=
  match node? node with
  | some (.struct fields) => some fields
  | _ => none

def slots? (node : Node) : Option Slots :=
  match node? node with
  | some (.array items cursor) => some ⟨items, cursor⟩
  | _ => none

end Marshal.Exact
