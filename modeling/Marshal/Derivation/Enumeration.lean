import Marshal.Derivation.Item

/-!
Deriving the enumerators of an enumeration. Every variant is an enumerator under its own name or
a new one. The variants carry no fields, and there is at least one of them.
-/

namespace Marshal.Derivation

def takeVariantOption (rename : Option String) (option : AttributeOption) :
    Except DerivationFault (Option String) :=
  if option.key = "rename" then (takeName rename option).map some
  else .error .unknownVariantOption

/-- An enumerator: the name it is written under, and its variant. -/
structure DeclaredEnumerator where
  name : String
  variant : String
deriving DecidableEq, Repr

structure DerivedEnumeration where
  name : String
  enumerators : List DeclaredEnumerator
deriving DecidableEq, Repr

def declareVariants : List ItemVariant → Except DerivationFault (List DeclaredEnumerator)
  | [] => .ok []
  | variant :: rest =>
      if variant.carriesFields then .error .variantFields
      else
        match readAttributes takeVariantOption none variant.attributes with
        | .error fault => .error fault
        | .ok rename =>
            match declareVariants rest with
            | .error fault => .error fault
            | .ok declared => .ok (⟨rename.getD variant.name, variant.name⟩ :: declared)

def Item.deriveEnumeration {FieldType : Type} (item : Item FieldType) :
    Except DerivationFault DerivedEnumeration :=
  match item.body with
  | .variants variants =>
      if !item.parameters.isEmpty then .error .genericEnumeration
      else if variants.isEmpty then .error .noVariants
      else (declareVariants variants).map fun enumerators => ⟨item.name, enumerators⟩
  | _ => .error .notEnumeration

def DerivedEnumeration.implementations (FieldType : Type) : List (Implementation FieldType) :=
  [⟨.enumerators, []⟩, ⟨.value, []⟩, ⟨.mapKey, []⟩]

end Marshal.Derivation
