import Marshal.Derivation.Attribute

/-!
Items that members or enumerators can be derived for. What the types of fields are is left open:
a derivation only hands them on.
-/

namespace Marshal.Derivation

inductive Parameter
  | type (name : String)
  | lifetime (name : String)
  | const (name : String)
deriving DecidableEq, Repr

namespace Parameter

def name : Parameter → String
  | type name | lifetime name | const name => name

def isLifetime : Parameter → Bool
  | lifetime _ => true
  | _ => false

end Parameter

structure ItemField (FieldType : Type) where
  name : String
  type : FieldType
  attributes : List Attribute

/-- A variant counts as carrying fields also when the list of its fields is there but empty. -/
structure ItemVariant where
  name : String
  attributes : List Attribute
  carriesFields : Bool

inductive ItemBody (FieldType : Type)
  | named (fields : List (ItemField FieldType))
  | unnamed
  | union
  | variants (variants : List ItemVariant)

structure Item (FieldType : Type) where
  name : String
  attributes : List Attribute
  parameters : List Parameter
  body : ItemBody FieldType

/-- An identifier's text without the mark that lets a keyword be one. -/
def plainName (identifier : String) : String :=
  match identifier.toList with
  | 'r' :: '#' :: rest => String.ofList rest
  | _ => identifier

/-- What an implementation provides. -/
inductive Contract
  | members
  | enumerators
  | value
  | mapKey
deriving DecidableEq, Repr

/-- What an implementation asks for. -/
inductive Requirement (FieldType : Type)
  | parameterIsStatic (name : String)
  | fieldIsStructure (type : FieldType)
  | fieldIsAssembler (type : FieldType)
  | itemIsStructure
deriving DecidableEq, Repr

structure Implementation (FieldType : Type) where
  contract : Contract
  requirements : List (Requirement FieldType)
deriving DecidableEq, Repr

end Marshal.Derivation
