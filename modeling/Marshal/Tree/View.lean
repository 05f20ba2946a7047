import Marshal.Tree.Node

/-!
Views of a node as what it may be. A view of another kind of node is nothing.
-/

namespace Marshal.Node

def count (number : Nat) : Node := .uint (.ofNat number)

def texts (values : List String) : Node := .array (values.map Node.text) 0

def list (items : List Node) : Node := .array items 0

def text? : Node → Option String
  | .text value => some value
  | _ => none

def count? : Node → Option Nat
  | .uint value => some value.toNat
  | _ => none

def bool? : Node → Option Bool
  | .bool value => some value
  | _ => none

def items? : Node → Option (List Node)
  | .array items _ => some items
  | _ => none

def member? (node : Node) (name : String) : Option Node :=
  match node with
  | .struct fields => Fields.get? fields name
  | _ => none

/-- A field that is there and holds something. -/
def field? (node : Node) (name : String) : Option Node :=
  match node.member? name with
  | some .null => none
  | found => found

def textField? (node : Node) (name : String) : Option String := (node.field? name).bind text?

def countField? (node : Node) (name : String) : Option Nat := (node.field? name).bind count?

/-- The elements of an array under a name, or none where there is no such field. -/
def itemsField? (node : Node) (name : String) : Option (List Node) :=
  match node.field? name with
  | some found => found.items?
  | none => some []

/-- Whether a field says yes. -/
def isSet (node : Node) (name : String) : Bool := ((node.field? name).bind bool?).getD false

def ofOption : Option Node → Node
  | some node => node
  | none => .null

end Marshal.Node
