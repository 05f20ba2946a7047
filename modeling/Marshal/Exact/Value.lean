import Marshal.AnyValue
import Marshal.Exact.Document
import Marshal.Schema

/-!
The exact form of values. A value is given by a document: integers by their digits, floating-point
numbers by their words, an optional by an array of its content, a map by an array of its entries,
an enumerator by its variant, a structure by all its fields, those that are not declared too.
-/

namespace Marshal.Exact

open Number

mutual

def ofValue (schema : Schema) (value : Val) (type : Ty) : Node :=
  match value, type with
  | value, .boxed inner => ofValue schema value inner
  | .bool value, _ => .bool value
  | .int value, _ => .text (toString value)
  | .single value, _ => .text (singleText value)
  | .double value, _ => .text (doubleText value)
  | .text value, _ => .text value
  | .enumerator code, .enumeration name =>
      match (schema.enumerationInfo name).spelling with
      | .variants names => .text ((names[code.toNat]?).getD "")
      | .wrapped _ => .text (toString code)
  | .absent, _ => .null
  | .present content, .option inner => .list [ofValue schema content inner]
  | .list items, .sequence _ item => .list (ofValues schema items item)
  | .map entries, .map _ key value => .list (ofEntries schema entries key value)
  | .tuple slots, .tuple types => .list (ofSlots schema slots types)
  | .record fields, .record name =>
      .struct (ofRecord schema fields (schema.structureInfo name).fields)
  | _, _ => .null

def ofValues (schema : Schema) (values : List Val) (type : Ty) : List Node :=
  match values with
  | [] => []
  | value :: rest => ofValue schema value type :: ofValues schema rest type

def ofEntries (schema : Schema) (entries : List (Val × Val)) (key value : Ty) : List Node :=
  match entries with
  | [] => []
  | (entryKey, entryValue) :: rest =>
      .list [ofValue schema entryKey key, ofValue schema entryValue value] ::
        ofEntries schema rest key value

def ofSlots (schema : Schema) (slots : List Val) (types : List Ty) : List Node :=
  match slots, types with
  | slot :: slots, type :: types => ofValue schema slot type :: ofSlots schema slots types
  | _, _ => []

def ofRecord (schema : Schema) (fields : List (String × Val)) (types : List (String × Ty)) :
    List (String × Node) :=
  match fields, types with
  | (name, value) :: fields, (_, type) :: types =>
      (name, ofValue schema value type) :: ofRecord schema fields types
  | _, _ => []

end

section Level

variable (schema : Schema) (deeper : String → Node → Option Val)

mutual

def valueAt? (type : Ty) (node : Node) : Option Val :=
  match type with
  | .primitive .bool => node.bool?.map Val.bool
  | .primitive (.int _) => (node.text?.bind String.toInt?).map Val.int
  | .primitive .single => (node.text?.bind single?).map Val.single
  | .primitive .double => (node.text?.bind double?).map Val.double
  | .string | .textual _ => node.text?.map Val.text
  | .enumeration name =>
      match (schema.enumerationInfo name).spelling with
      | .variants names =>
          (node.text?.bind fun variant => names.findIdx? (· = variant)).map fun position =>
            .enumerator position
      | .wrapped _ => (node.text?.bind String.toInt?).map Val.enumerator
  | .record name => deeper name node
  | .option inner =>
      match node with
      | .null => some .absent
      | .array [content] _ => (valueAt? inner content).map Val.present
      | _ => none
  | .sequence _ item => (node.items?.bind fun items => items.mapM fun element =>
      valueAt? item element).map Val.list
  | .map _ key value =>
      (node.items?.bind fun entries => entries.mapM fun entry =>
        match entry with
        | .array [keyNode, valueNode] _ =>
            match valueAt? key keyNode, valueAt? value valueNode with
            | some key, some value => some (key, value)
            | _, _ => none
        | _ => none).map fun entries =>
          .map (entries.foldl (fun known entry => Val.insertEntry known entry.1 entry.2) [])
  | .tuple types => (node.items?.bind (slotsAt? types)).map Val.tuple
  | .boxed inner => valueAt? inner node

def slotsAt? (types : List Ty) (nodes : List Node) : Option (List Val) :=
  match types, nodes with
  | [], [] => some []
  | type :: types, node :: nodes =>
      match valueAt? type node, slotsAt? types nodes with
      | some value, some others => some (value :: others)
      | _, _ => none
  | _, _ => none

end

end Level

/-- A record with the fields that a document gives; the others keep what they start from. -/
def record? (schema : Schema) : Nat → String → Node → Option Val
  | 0, _, _ => none
  | levels + 1, name, node =>
      let info := schema.structureInfo name
      (info.fields.mapM fun (field, type) =>
        match node.member? field with
        | some given =>
            (valueAt? schema (record? schema levels) type given).map fun value => (field, value)
        | none => some (field, (info.initial.get? [field]).getD (schema.default type))).map
        Val.record

def value? (schema : Schema) (type : Ty) (node : Node) : Option Val :=
  valueAt? schema (record? schema (node.depth + 1)) type node

def ofAny (schema : Schema) (container : AnyValue) : Node :=
  match container.held? with
  | some held => ofValue schema held.value held.type
  | none => .null

end Marshal.Exact
