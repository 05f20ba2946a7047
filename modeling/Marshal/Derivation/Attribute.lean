/-!
Attributes of an item and the options in them. Only attributes of the path `assemble` count, and
those must hold a list of options. The options of several attributes are read as one list, from
the first on; the first fault ends the reading.
-/

namespace Marshal.Derivation

/-- Why nothing is derived for an item. -/
inductive DerivationFault
  | lifetimeParameter
  | unknownTypeOption
  | explicitTrue
  | unnamedFields
  | structureOfEnumeration
  | structureOfUnion
  | renameRepeated
  | renameEmpty
  | unknownFieldOption
  | skipCombined
  | notEnumeration
  | genericEnumeration
  | noVariants
  | variantFields
  | unknownVariantOption
  | valueMissing
  | textExpected
  | boolExpected
  | commaExpected
  | optionsMissing
  | optionsAssigned
deriving DecidableEq, Repr

def DerivationFault.message : DerivationFault → String
  | .lifetimeParameter =>
      "assembled types must be `'static`, lifetime parameters are not supported"
  | .unknownTypeOption => "unknown type attribute, expected `Structure = false`"
  | .explicitTrue => "Explicit `true` is invalid, it's the default value."
  | .unnamedFields => "`Assemble` requires a struct with named fields"
  | .structureOfEnumeration =>
      "`Assemble` cannot be derived for enums, use `AssembleEnum` for fieldless enums"
  | .structureOfUnion => "`Assemble` cannot be derived for unions"
  | .renameRepeated => "duplicate `rename`"
  | .renameEmpty => "`rename` cannot be empty"
  | .unknownFieldOption => "unknown field attribute, expected `rename`, `extend` or `skip`"
  | .skipCombined => "`skip` cannot be combined with other field attributes"
  | .notEnumeration =>
      "`AssembleEnum` can only be derived for fieldless enums, use `Assemble` for structs"
  | .genericEnumeration => "`AssembleEnum` does not support generic enums"
  | .noVariants => "`AssembleEnum` requires at least one variant"
  | .variantFields => "`AssembleEnum` variants cannot carry fields"
  | .unknownVariantOption => "unknown variant attribute, expected `rename`"
  | .valueMissing => "expected `=`"
  | .textExpected => "expected string literal"
  | .boolExpected => "expected boolean literal"
  | .commaExpected => "expected `,`"
  | .optionsMissing => "expected attribute arguments in parentheses: #[assemble(...)]"
  | .optionsAssigned => "expected parentheses: #[assemble(...)]"

inductive Literal
  | text (value : String)
  | bool (value : Bool)
  | number
deriving DecidableEq, Repr

/-- One option: a key that stands alone or is given a value. -/
structure AttributeOption where
  key : String
  value : Option Literal
deriving DecidableEq, Repr

namespace AttributeOption

def text (option : AttributeOption) : Except DerivationFault String :=
  match option.value with
  | none => .error .valueMissing
  | some (.text value) => .ok value
  | some _ => .error .textExpected

def bool (option : AttributeOption) : Except DerivationFault Bool :=
  match option.value with
  | none => .error .valueMissing
  | some (.bool value) => .ok value
  | some _ => .error .boolExpected

/-- A key that takes no value is followed by the next option. -/
def bare (option : AttributeOption) : Except DerivationFault Unit :=
  match option.value with
  | none => .ok ()
  | some _ => .error .commaExpected

end AttributeOption

inductive AttributeForm
  | alone
  | assigned
  | options (options : List AttributeOption)
deriving DecidableEq, Repr

structure Attribute where
  path : String
  form : AttributeForm
deriving DecidableEq, Repr

def Attribute.options (clause : Attribute) : Except DerivationFault (List AttributeOption) :=
  if clause.path = "assemble" then
    match clause.form with
    | .alone => .error .optionsMissing
    | .assigned => .error .optionsAssigned
    | .options options => .ok options
  else .ok []

section Reading

variable {State : Type} (take : State → AttributeOption → Except DerivationFault State)

def readOptions : State → List AttributeOption → Except DerivationFault State
  | state, [] => .ok state
  | state, option :: rest =>
      match take state option with
      | .error fault => .error fault
      | .ok next => readOptions next rest

def readAttributes : State → List Attribute → Except DerivationFault State
  | state, [] => .ok state
  | state, clause :: rest =>
      match clause.options with
      | .error fault => .error fault
      | .ok options =>
          match readOptions take state options with
          | .error fault => .error fault
          | .ok next => readAttributes next rest

end Reading

/-- Takes a new name, once and not empty. A second one is refused before its value is looked at. -/
def takeName (present : Option String) (option : AttributeOption) :
    Except DerivationFault String :=
  match present with
  | some _ => .error .renameRepeated
  | none =>
      match option.text with
      | .error fault => .error fault
      | .ok name => if name.isEmpty then .error .renameEmpty else .ok name

end Marshal.Derivation
