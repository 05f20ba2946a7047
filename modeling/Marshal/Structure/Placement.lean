import Marshal.Schema

/-!
Where fields lie. The fields of a structure stand in the order of their declaration, each at the
first multiple of its alignment, and the whole is rounded up to the greatest alignment. An absent
optional takes a bit pattern that no value has where there is one, and a tag of its own otherwise.
-/

namespace Marshal

structure Room where
  size : Nat
  alignment : Nat
  /-- Whether some bit pattern stands for no value. -/
  hasSpare : Bool
deriving DecidableEq, Repr

namespace Room

def roundUp (size alignment : Nat) : Nat := (size + alignment - 1) / alignment * alignment

/-- The offsets of rooms that stand one after the other, and where the last one ends. -/
def place : List Room → Nat → List Nat × Nat
  | [], start => ([], start)
  | room :: rest, start =>
      let offset := roundUp start room.alignment
      let (offsets, stop) := place rest (offset + room.size)
      (offset :: offsets, stop)

def enclosing (rooms : List Room) : Room :=
  let alignment := rooms.foldl (fun greatest room => max greatest room.alignment) 1
  ⟨roundUp (place rooms 0).2 alignment, alignment, rooms.any hasSpare⟩

def optional (content : Room) : Room :=
  if content.hasSpare then { content with hasSpare := false }
  else ⟨roundUp (content.size + 1) content.alignment, content.alignment, true⟩

def pointers (words : Nat) (hasSpare : Bool) : Room := ⟨8 * words, 8, hasSpare⟩

end Room

def Primitive.room : Primitive → Room
  | .bool => ⟨1, 1, true⟩
  | .int kind => ⟨kind.width / 8, kind.width / 8, false⟩
  | .single => ⟨4, 4, false⟩
  | .double => ⟨8, 8, false⟩

namespace Schema

mutual

def roomAt (schema : Schema) (deeper : String → Room) : Ty → Room
  | .primitive scalar => scalar.room
  | .string | .textual _ | .sequence .vector _ => .pointers 3 true
  | .sequence .deque _ => .pointers 4 true
  | .map .ordered _ _ => .pointers 3 true
  | .map .hashed _ _ => .pointers 6 true
  | .map .quick _ _ => .pointers 5 true
  | .boxed _ => .pointers 1 true
  | .enumeration name =>
      match (schema.enumerationInfo name).spelling with
      | .variants _ => ⟨1, 1, true⟩
      | .wrapped _ => ⟨8, 8, false⟩
  | .record name => deeper name
  | .option inner => (roomAt schema deeper inner).optional
  | .tuple slots =>
      .enclosing ((roomsAt schema deeper slots).mergeSort fun left right =>
        right.alignment ≤ left.alignment)

def roomsAt (schema : Schema) (deeper : String → Room) : List Ty → List Room
  | [] => []
  | type :: rest => roomAt schema deeper type :: roomsAt schema deeper rest

end

/-- Structures lie inside each other no deeper than there are structures. -/
def structureRoom (schema : Schema) : Nat → String → Room
  | 0, _ => .enclosing []
  | levels + 1, name =>
      .enclosing ((schema.structureInfo name).fields.map fun field =>
        schema.roomAt (structureRoom schema levels) field.2)

def room (schema : Schema) (type : Ty) : Room :=
  schema.roomAt (schema.structureRoom schema.structures.length) type

/-- The offsets of the fields of a structure. -/
def offsets (schema : Schema) (types : List Ty) : List Nat :=
  (Room.place (types.map schema.room) 0).1

end Schema

end Marshal
