import Marshal.Exact.Value
import Marshal.Graph.Describe
import Marshal.Report.Fault
import Marshal.Settings.Registry
import Marshal.Text.Listing

/-!
Declarations, graphs and registries as documents.
-/

namespace Marshal.Report

def widened (schema : Schema) (primitive : Primitive) (value : Val) : Fields :=
  let wide := (primitive.widen value).held
  let kind := primitive.wideKind
  [("wide", Exact.ofAny schema wide), ("kind", .text kind.name), ("name", .text kind.name),
    ("agrees", .bool (wide.type? = some kind.type)), ("type", .text kind.type.name)]

def narrowed (schema : Schema) (source : AnyValue) (primitive : Primitive) : Fields :=
  match primitive.narrow source with
  | .ok value => [("value", Exact.ofValue schema value (.primitive primitive))]
  | .error found => fault found

def reading {State : Type} (schema : Schema) (type : Ty) (reading : Reading Val State) : Fields :=
  outcome reading.outcome ++ [("value", Exact.ofValue schema reading.target type)]

/-- A reading from an array, with the position it leaves. -/
def pulled (schema : Schema) (type : Ty) (pulled : Reading Val Slots) : Fields :=
  reading schema type pulled ++
    [("index", .count pulled.source.cursor), ("complete", .bool pulled.source.isComplete)]

def members (members : List Member) : Fields :=
  [("len", .count members.length), ("empty", .bool members.isEmpty),
    ("members", .list (members.map fun member =>
      .list [.text member.name, .text member.id.field, .texts member.outputs]))]

def memberAt (member : Option Member) (position : Option Nat) : Fields :=
  [("member", .ofOption (member.map fun found =>
      .struct [("name", .text found.name), ("field", .text found.id.field)])),
    ("position", .ofOption (position.map Node.count))]

/-- Whether two identities are the same, as they are and when their types are hidden. -/
def identities (left right : FieldId) : Fields :=
  [("equal", .bool (left = right)), ("erased", .bool (left = right)),
    ("hash", .bool (left = right)), ("types", .bool (left.type = right.type))]

def identity (owner : String) (id : FieldId) : Fields :=
  [("text", .text (id.list owner)), ("offset", .count id.offset)]

def table (spell : Int → String) : Except Fault (EnumTable Int) → Fields
  | .ok table =>
      [("len", .count table.entries.length), ("empty", .bool table.entries.isEmpty),
        ("names", .texts table.names), ("debug", .text (table.list spell))]
  | .error found => fault found

def graph (name : String) (result : Except Fault Unit × Graph) : Fields :=
  outcome result.1 ++
    [("nodes", .count result.2.nodes.length), ("text", .text (result.2.render name))]

def state (schema : Schema) (settings : Settings) : Node :=
  .list (settings.entries.map fun (name, entry) =>
    .list [.text name, .text entry.type.name, Exact.ofAny schema entry.value])

def settingNames (settings : Settings) : Fields :=
  [("names", .texts settings.entries.names), ("len", .count settings.entries.length),
    ("empty", .bool settings.entries.isEmpty), ("map_len", .count settings.entries.length),
    ("map_empty", .bool settings.entries.isEmpty)]

def entry (schema : Schema) : Option Entry → Fields
  | none => [("found", .bool false)]
  | some entry =>
      [("found", .bool true), ("type", .text entry.type.name),
        ("value", Exact.ofAny schema entry.value), ("debug", .text (entry.list schema)),
        ("default", Exact.ofValue schema (schema.default entry.type) entry.type),
        ("same", .bool (entry.value.is entry.type)), ("listed", .bool true)]

def config (config : SettingsConfig) : Fields :=
  [("path", .bool config.path.isSome), ("format", .text config.format.name),
    ("debug", .text config.format.list)]

def file : FileState → Node
  | .text content => .text content
  | _ => .null

end Marshal.Report
