import Marshal.Derivation.Enumeration
import Marshal.Derivation.Structure
import Marshal.Structure.Placement

/-!
From derived items to declarations. A derived structure is declared member by member in the order
of its fields; the values of a derived enumeration are the positions of its variants. Both can be
added to a schema under their full names.
-/

namespace Marshal.Derivation

/-- The name of the structure that a type is. -/
def structureName : Ty → String
  | .record name => name
  | type => type.name

def DeclaredField.head (offset : String → Nat) (field : DeclaredField Ty) : MemberHead :=
  ⟨field.name, ⟨offset field.field, field.field, field.type⟩, [plainName field.field]⟩

/-- The line that declares a field, given what other structures have declared. -/
def DeclaredField.call (offset : String → Nat) (declared : String → Except Fault (List Member))
    (field : DeclaredField Ty) : MemberCall :=
  if field.isExtension then
    .extend (field.head offset) (structureName field.type) (declared (structureName field.type))
  else .field (field.head offset) field.type

def declareMembers (owner : String) (offset : String → Nat)
    (declared : String → Except Fault (List Member)) (fields : List (DeclaredField Ty)) :
    Except Fault (List Member) :=
  Declaration.build owner (fields.map (DeclaredField.call offset declared))

def enumeratorEntries (position : Nat) : List DeclaredEnumerator → List (String × Int)
  | [] => []
  | enumerator :: rest => (enumerator.name, position) :: enumeratorEntries (position + 1) rest

def DerivedEnumeration.table (derived : DerivedEnumeration) (owner : String) :
    Except Fault (EnumTable Int) :=
  EnumTable.declare owner (enumeratorEntries 0 derived.enumerators)

def fieldTypes : ItemBody Ty → List (String × Ty)
  | .named fields => fields.map fun field => (plainName field.name, field.type)
  | _ => []

end Marshal.Derivation

namespace Marshal.Schema

open Marshal.Derivation

def fieldIdentities (schema : Schema) : ItemBody Ty → List (String × FieldId)
  | .named fields =>
      (fields.zip (schema.offsets (fields.map ItemField.type))).map fun (field, offset) =>
        (plainName field.name, ⟨offset, field.name, field.type⟩)
  | _ => []

/-- Adds a structure. Members that are not derived are declared by hand, out of the identities of
the fields, and the structure is then labelled with its full name. -/
def addStructure (schema : Schema) (name : String) (item : Item Ty)
    (byHand : List (String × FieldId) → Except Fault (List Member)) :
    Except DerivationFault Schema :=
  item.deriveStructure.map fun derived =>
    let types := fieldTypes item.body
    let identities := fieldIdentities schema item.body
    let initial := Val.record (types.map fun field => (field.1, schema.default field.2))
    let offset := fun field =>
      ((identities.lookup (plainName field)).map FieldId.offset).getD 0
    let info : StructureInfo :=
      match derived.declared with
      | some fields =>
          ⟨name, derived.name, types, identities, initial,
            declareMembers name offset (fun base => (schema.structureInfo base).members) fields⟩
      | none => ⟨name, name, types, identities, initial, byHand identities⟩
    { schema with structures := schema.structures ++ [info] }

/-- Adds an enumeration that starts from the variant at a position. -/
def addEnumeration (schema : Schema) (name : String) (item : Item Ty) (initial : Nat) :
    Except DerivationFault Schema :=
  item.deriveEnumeration.map fun derived =>
    { schema with
      enumerations := schema.enumerations ++
        [⟨name, derived.name, initial, derived.table name,
          .variants (derived.enumerators.map DeclaredEnumerator.variant)⟩] }

end Marshal.Schema
