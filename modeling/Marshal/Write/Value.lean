import Marshal.Schema
import Marshal.Write.Sink

/-!
Writing values into a sink. `writeAt` works on one structure level: it follows a type down to
the structures it mentions and leaves each of them to `deeper`. `writeStructure` stacks levels;
as many as the value is deep are always enough.
-/

namespace Marshal

namespace EnumerationInfo

/-- The name that a value is written under. -/
def nameOf (info : EnumerationInfo) (code : Int) : Except Fault String :=
  match info.table with
  | .error fault => .error fault
  | .ok table =>
      match table.nameOf? code with
      | some name => .ok name
      | none => .error (.of (.unmappedEnumerator info.label))

/-- The value that a name is read as. -/
def codeOf (info : EnumerationInfo) (name : String) : Except Fault Int :=
  match info.table with
  | .error fault => .error fault
  | .ok table =>
      match table.valueOf? name with
      | some code => .ok code
      | none => .error (.of (.unknownEnumerator name info.label))

end EnumerationInfo

/-- The names of the two fields of a map entry that is written as a record. -/
def keyField : String := "key"

def valueField : String := "value"

namespace Schema

section Level

variable {Structs Arrays : Type} (schema : Schema) (sink : Sink Structs Arrays)
  (deeper : String → Val → Step Structs)

mutual

def writeAt (type : Ty) (value : Val) {State : Type} (outlet : Outlet Structs Arrays State) :
    Step State :=
  match type with
  | .primitive scalar => outlet.put (scalar.widen value)
  | .string => outlet.put (.text value.asText)
  | .textual _ => outlet.put (.text value.asText)
  | .enumeration name =>
      match (schema.enumerationInfo name).nameOf value.asCode with
      | .ok text => outlet.put (.text text)
      | .error fault => .fail fault
  | .record name => outlet.withStruct (deeper name value)
  | .option inner =>
      match value.content? with
      | some content => writeAt inner content outlet
      | none => outlet.leaveEmpty
  | .sequence _ item =>
      outlet.withArray (.allFrom 0 (value.items.map fun element => writeAt item element sink.next))
  | .map _ keyType valueType =>
      match schema.keyNaming? keyType with
      | some naming =>
          outlet.withStruct <| .all <| value.entries.map fun entry =>
            match naming.toName? entry.1.asText with
            | none => .fail (.of (.keyNotWritable keyType.name))
            | some name => (writeAt valueType entry.2 (sink.field name)).inField name
      | none =>
          outlet.withArray <| .allFrom 0 <| value.entries.map fun entry =>
            sink.next.withStruct <|
              ((writeAt keyType entry.1 (sink.field keyField)).inField keyField).andThen
                ((writeAt valueType entry.2 (sink.field valueField)).inField valueField)
  | .tuple slots => outlet.withArray (.allFrom 0 (writeSlots slots value.slots))
  | .boxed inner => writeAt inner value outlet

def writeSlots : List Ty → List Val → List (Step Arrays)
  | slot :: slots, value :: values => writeAt slot value sink.next :: writeSlots slots values
  | _, _ => []

end

/-- The value a member stands for, out of its owner's value. -/
def memberValue (owner : Val) (path : Val.Path) (fallback : Val) : Val :=
  (owner.get? path).getD fallback

mutual

/-- An extending member writes at its owner's level and adds nothing to a fault's trail. -/
def writeMember (owner : Val) : Member → Step Structs
  | .field head type =>
      (writeAt schema sink deeper type (memberValue owner head.path (schema.default type))
        (sink.field head.name)).inField head.name
  | .extend head base members =>
      writeMembers (memberValue owner head.path (schema.structureInfo base).initial) members

def writeMembers (owner : Val) : List Member → Step Structs
  | [] => .done
  | member :: rest => (writeMember owner member).andThen (writeMembers owner rest)

end

end Level

section Stacked

variable {Structs Arrays : Type} (schema : Schema) (sink : Sink Structs Arrays)

/-- Writes all members of a structure into an open struct. -/
def writeStructure : Nat → String → Val → Step Structs
  | 0, _, _ => .done
  | levels + 1, name, value =>
      match (schema.structureInfo name).members with
      | .error fault => .fail fault
      | .ok members => writeMembers schema sink (writeStructure levels) value members

def writeObject (name : String) (value : Val) : Step Structs :=
  writeStructure schema sink value.depth name value

/-- Writes a value at one place. -/
def write (type : Ty) (value : Val) {State : Type} (outlet : Outlet Structs Arrays State) :
    Step State :=
  writeAt schema sink (writeStructure schema sink value.depth) type value outlet

end Stacked

/-- Writes a value as a field of a document. -/
def writeNamed (schema : Schema) (type : Ty) (value : Val) (name : String) : Step Fields :=
  schema.write treeSink type value (Fields.outlet name)

/-- Writes a value as the next element of an array. -/
def writeNext (schema : Schema) (type : Ty) (value : Val) : Step Slots :=
  schema.write treeSink type value Slots.outlet

end Schema

end Marshal
