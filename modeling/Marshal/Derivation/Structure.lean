import Marshal.Derivation.Item

/-!
Deriving the members of a structure. A field is declared under its own name or a new one, plainly
or as an extension, unless it is skipped. Lifetime parameters are refused before the options of
the item, these before its shape, and the fields are looked at in order.
-/

namespace Marshal.Derivation

/-- Whether the structure's members are derived too, or declared by hand. -/
def takeTypeOption (_ : Bool) (option : AttributeOption) : Except DerivationFault Bool :=
  if option.key = "Structure" then
    match option.bool with
    | .error fault => .error fault
    | .ok true => .error .explicitTrue
    | .ok false => .ok false
  else .error .unknownTypeOption

structure FieldOptions where
  rename : Option String
  isExtension : Bool
  isSkipped : Bool
deriving DecidableEq, Repr

namespace FieldOptions

def none : FieldOptions := ⟨.none, false, false⟩

def take (options : FieldOptions) (option : AttributeOption) :
    Except DerivationFault FieldOptions :=
  if option.key = "rename" then
    (takeName options.rename option).map fun name => { options with rename := some name }
  else if option.key = "extend" then
    option.bare.map fun _ => { options with isExtension := true }
  else if option.key = "skip" then
    option.bare.map fun _ => { options with isSkipped := true }
  else .error .unknownFieldOption

/-- The options of a field. A skipped field has no others. -/
def ofAttributes (attributes : List Attribute) : Except DerivationFault FieldOptions :=
  match readAttributes take none attributes with
  | .error fault => .error fault
  | .ok options =>
      if options.isSkipped && (options.rename.isSome || options.isExtension) then
        .error .skipCombined
      else .ok options

end FieldOptions

/-- A field that is declared: the name it is written under, and its own. -/
structure DeclaredField (FieldType : Type) where
  name : String
  field : String
  type : FieldType
  isExtension : Bool
deriving DecidableEq, Repr

structure DerivedStructure (FieldType : Type) where
  name : String
  parameters : List Parameter
  /-- Nothing where the members are declared by hand. -/
  declared : Option (List (DeclaredField FieldType))
deriving DecidableEq, Repr

section Fields

variable {FieldType : Type}

/-- The declarations of the fields that are not skipped, in order. -/
def declareFields : List (ItemField FieldType) →
    Except DerivationFault (List (DeclaredField FieldType))
  | [] => .ok []
  | field :: rest =>
      match FieldOptions.ofAttributes field.attributes with
      | .error fault => .error fault
      | .ok options =>
          match declareFields rest with
          | .error fault => .error fault
          | .ok declared =>
              if options.isSkipped then .ok declared
              else .ok (⟨options.rename.getD (plainName field.name), field.name, field.type,
                options.isExtension⟩ :: declared)

def ItemBody.declaredFields : ItemBody FieldType →
    Except DerivationFault (List (DeclaredField FieldType))
  | .named fields => declareFields fields
  | .unnamed => .error .unnamedFields
  | .union => .error .structureOfUnion
  | .variants _ => .error .structureOfEnumeration

def Item.deriveStructure (item : Item FieldType) :
    Except DerivationFault (DerivedStructure FieldType) :=
  if item.parameters.any Parameter.isLifetime then .error .lifetimeParameter
  else
    match readAttributes takeTypeOption true item.attributes with
    | .error fault => .error fault
    | .ok derives =>
        match item.body.declaredFields with
        | .error fault => .error fault
        | .ok fields =>
            .ok ⟨item.name, item.parameters, if derives then some fields else none⟩

end Fields

namespace DerivedStructure

variable {FieldType : Type}

def isGeneric (derived : DerivedStructure FieldType) : Bool := !derived.parameters.isEmpty

def staticParameters (derived : DerivedStructure FieldType) : List (Requirement FieldType) :=
  derived.parameters.flatMap fun parameter =>
    match parameter with
    | .type name => [.parameterIsStatic name]
    | _ => []

/-- What a declared field's type has to provide. -/
def fieldRequirement (field : DeclaredField FieldType) : Requirement FieldType :=
  if field.isExtension then .fieldIsStructure field.type else .fieldIsAssembler field.type

/-- Only the types in a generic structure have to be asked for what they provide. -/
def structureRequirements (derived : DerivedStructure FieldType)
    (fields : List (DeclaredField FieldType)) : List (Requirement FieldType) :=
  derived.staticParameters ++ if derived.isGeneric then fields.map fieldRequirement else []

def valueRequirements (derived : DerivedStructure FieldType) : List (Requirement FieldType) :=
  derived.staticParameters ++ if derived.isGeneric then [.itemIsStructure] else []

def implementations (derived : DerivedStructure FieldType) : List (Implementation FieldType) :=
  (match derived.declared with
    | some fields => [⟨.members, derived.structureRequirements fields⟩]
    | none => []) ++
  [⟨.value, derived.valueRequirements⟩, ⟨.mapKey, derived.valueRequirements⟩]

end DerivedStructure

end Marshal.Derivation
