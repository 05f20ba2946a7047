/-!
The kinds of document nodes, by the names that messages use for them.
-/

namespace Marshal

inductive NodeKind
  | null
  | bool
  | int
  | uint
  | double
  | text
  | struct
  | array
deriving DecidableEq, Repr

def NodeKind.name : NodeKind → String
  | .null => "null"
  | .bool => "bool"
  | .int => "int64"
  | .uint => "uint64"
  | .double => "double"
  | .text => "string"
  | .struct => "struct"
  | .array => "array"

end Marshal
