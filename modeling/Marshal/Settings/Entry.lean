import Marshal.Graph.Describe
import Marshal.Read.Value
import Marshal.Settings.File
import Marshal.Text.Listing

/-!
Settings entries: a value of any type beside the type that knows how to write and read it. The
value is asked for by that type on every use.
-/

namespace Marshal

structure Entry where
  type : Ty
  value : AnyValue

namespace Entry

def of (type : Ty) (value : Val) : Entry := ⟨type, .of type value⟩

def list (schema : Schema) (entry : Entry) : String :=
  Text.enclosed "Entry \x7b " " \x7d"
    ["type: " ++ Text.listed entry.type.name, "value: " ++ schema.listAny entry.value]

end Entry

def SettingsFormat.list (format : SettingsFormat) : String :=
  Text.enclosed "SettingsFormat(" ")" [Text.listed format.name]

/-- A reading into a container of any value. -/
structure AnyReading where
  outcome : Except Fault Unit
  container : AnyValue
  source : Fields
  log : Log

namespace Schema

/-- Writes a container's value as one of a type. -/
def writeAny (schema : Schema) (type : Ty) (container : AnyValue) (name : String) : Step Fields :=
  match container.getOrFault type with
  | .error fault => .fail fault
  | .ok value => schema.writeNamed type value name

/-- Reads into a container's value, which has to be one of a type. -/
def readAny (schema : Schema) (type : Ty) (container : AnyValue) (name : String)
    (fields : Fields) : AnyReading :=
  match container.getOrFault type with
  | .error fault => ⟨.error fault, container, fields, []⟩
  | .ok value =>
      let reading := schema.readNamed type value name fields
      ⟨reading.outcome, .of type reading.target, reading.source, reading.log⟩

end Schema

end Marshal
