import Marshal.AnyValue
import Marshal.Number.Layout
import Marshal.Schema
import Marshal.Text.Quoted

/-!
How values are spelled in diagnostic listings: texts in quotes, optionals by their case,
containers in brackets, structures by label and field.
-/

namespace Marshal

open Number

namespace Text

/-- Plain notation from a ten-thousandth up to sixteen whole digits. -/
def listingLayout : Layout := ⟨some (-4, 15), true, false, .up⟩

/-- Pieces between an opening and a closing mark, separated by commas. -/
def enclosed (opening closing : String) (pieces : List String) : String :=
  opening ++ String.intercalate ", " pieces ++ closing

end Text

namespace Schema

open Text

mutual

/-- The listing of a value at a type. -/
def list (schema : Schema) (value : Val) (type : Ty) : String :=
  match value, type with
  | value, .boxed inner => list schema value inner
  | .bool value, _ => toString value
  | .int value, _ => toString value
  | .single value, _ => String.ofList (listingLayout.single value)
  | .double value, _ => String.ofList (listingLayout.double value)
  | .text value, _ => listed value
  | .enumerator code, .enumeration name => (schema.enumerationInfo name).spell code
  | .enumerator code, _ => toString code
  | .absent, _ => "None"
  | .present content, .option inner => "Some(" ++ list schema content inner ++ ")"
  | .list items, .sequence _ item => enclosed "[" "]" (listItems schema items item)
  | .map entries, .map _ key value => enclosed "\x7b" "\x7d" (listEntries schema entries key value)
  | .tuple [slot], .tuple [type] => "(" ++ list schema slot type ++ ",)"
  | .tuple slots, .tuple types => enclosed "(" ")" (listSlots schema slots types)
  | .record [], .record name => (schema.structureInfo name).label
  | .record fields, .record name =>
      enclosed ((schema.structureInfo name).label ++ " \x7b ") " \x7d"
        (listFields schema fields (schema.structureInfo name).fields)
  | _, _ => ""

def listItems (schema : Schema) (items : List Val) (type : Ty) : List String :=
  match items with
  | [] => []
  | item :: rest => list schema item type :: listItems schema rest type

def listEntries (schema : Schema) (entries : List (Val × Val)) (key value : Ty) : List String :=
  match entries with
  | [] => []
  | (entryKey, entryValue) :: rest =>
      (list schema entryKey key ++ ": " ++ list schema entryValue value) ::
        listEntries schema rest key value

def listSlots (schema : Schema) (slots : List Val) (types : List Ty) : List String :=
  match slots, types with
  | slot :: slots, type :: types => list schema slot type :: listSlots schema slots types
  | _, _ => []

def listFields (schema : Schema) (fields : List (String × Val)) (types : List (String × Ty)) :
    List String :=
  match fields, types with
  | (name, value) :: fields, (_, type) :: types =>
      (name ++ ": " ++ list schema value type) :: listFields schema fields types
  | _, _ => []

end

def listAny (schema : Schema) (container : AnyValue) : String :=
  match container.held? with
  | none => "AnyValue(<none>)"
  | some held => "AnyValue(" ++ schema.list held.value held.type ++ ")"

end Schema

/-- The listing of a table: its names and the spellings of its values, in declaration order. -/
def EnumTable.list {Enumerator : Type} (table : EnumTable Enumerator)
    (spell : Enumerator → String) : String :=
  Text.enclosed "\x7b" "\x7d"
    (table.entries.map fun entry => Text.listed entry.1 ++ ": " ++ spell entry.2)

/-- The listing of a field's identity, `owner` being the full name of its structure. -/
def FieldId.list (id : FieldId) (owner : String) : String :=
  Text.enclosed "FieldId \x7b " " \x7d"
    ["owner: " ++ Text.listed owner, "field: " ++ Text.listed id.field,
      "offset: " ++ toString id.offset]

end Marshal
