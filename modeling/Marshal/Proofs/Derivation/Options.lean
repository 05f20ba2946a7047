import Marshal.Derivation.Enumeration
import Marshal.Derivation.Structure
import Mathlib.Tactic

/-!
# What accepted attributes say

Attributes are taken option by option, and most ways of giving options are refused. What is accepted
says no more than which options occur: whether a field is skipped, whether it is an extension, and the
name that a field or a variant is given. So the declared fields are those that are not skipped, in
their order, and the enumerators are the variants.
-/

namespace Marshal.Derivation

/-- The options that an attribute holds, if it is one that counts. -/
def Attribute.held (clause : Attribute) : List AttributeOption :=
  if clause.path = "assemble" then
    match clause.form with
    | .options options => options
    | .alone | .assigned => []
  else []

/-- All options that attributes hold, in order. -/
def optionsOf (attributes : List Attribute) : List AttributeOption := attributes.flatMap Attribute.held

def occurs (key : String) (options : List AttributeOption) : Bool :=
  options.any fun option => option.key = key

/-- The text that the first option for a new name is given. -/
def newName? (options : List AttributeOption) : Option String :=
  (options.find? fun option => option.key = "rename").bind fun option =>
    match option.value with
    | some (.text name) => some name
    | _ => none

namespace ItemField

variable {FieldType : Type}

def isSkipped (field : ItemField FieldType) : Bool := occurs "skip" (optionsOf field.attributes)

def isExtension (field : ItemField FieldType) : Bool := occurs "extend" (optionsOf field.attributes)

/-- The name that a field is written under: a new one, or its own. -/
def finalName (field : ItemField FieldType) : String :=
  (newName? (optionsOf field.attributes)).getD (plainName field.name)

def declaration (field : ItemField FieldType) : DeclaredField FieldType :=
  ⟨field.finalName, field.name, field.type, field.isExtension⟩

end ItemField

def ItemVariant.finalName (variant : ItemVariant) : String :=
  (newName? (optionsOf variant.attributes)).getD variant.name

section Reading

variable {State : Type} {take : State → AttributeOption → Except DerivationFault State}
  {state result : State}

theorem options_held {clause : Attribute} {options : List AttributeOption}
    (taken : clause.options = .ok options) : options = clause.held := by
  unfold Attribute.options at taken
  unfold Attribute.held
  split_ifs at taken ⊢
  · split at taken <;> cases taken
    rename_i form
    rw [form]
  · cases taken
    rfl

theorem read_options_append {first second : List AttributeOption} {middle : State}
    (read : readOptions take state first = .ok middle)
    (further : readOptions take middle second = .ok result) :
    readOptions take state (first ++ second) = .ok result := by
  induction first generalizing state with
  | nil =>
      cases read
      exact further
  | cons option rest induction =>
      rw [List.cons_append, readOptions]
      rw [readOptions] at read
      split at read
      · cases read
      · exact induction read

/-- The options of several attributes are read as one list. -/
theorem read_attributes_ok {attributes : List Attribute}
    (read : readAttributes take state attributes = .ok result) :
    readOptions take state (optionsOf attributes) = .ok result := by
  induction attributes generalizing state with
  | nil => exact read
  | cons clause rest induction =>
      rw [readAttributes] at read
      split at read
      · cases read
      · rename_i options own
        obtain rfl := options_held own
        split at read
        · cases read
        · rename_i next taken
          exact read_options_append taken (induction read)

end Reading

section Names

variable {present next : Option String} {option : AttributeOption} {rest : List AttributeOption}

/-- That an option gives a name where there was none, or is about something else. -/
inductive Renames (present : Option String) (option : AttributeOption) : Option String → Prop
  | given {name : String} (key : option.key = "rename") (fresh : present = none)
      (value : option.value = some (.text name)) : Renames present option (some name)
  | other (key : option.key ≠ "rename") : Renames present option present

theorem take_name_ok {name : String} (key : option.key = "rename")
    (taken : takeName present option = .ok name) : Renames present option (some name) := by
  unfold takeName AttributeOption.text at taken
  cases present with
  | some old => cases taken
  | none =>
      cases value : option.value with
      | none =>
          rw [value] at taken
          cases taken
      | some given =>
          rw [value] at taken
          cases given with
          | text given =>
              dsimp only at taken
              split_ifs at taken
              cases taken
              exact .given key rfl value
          | bool given => cases taken
          | number => cases taken

theorem Renames.name (renames : Renames present option next) :
    next.or (newName? rest) = present.or (newName? (option :: rest)) := by
  unfold newName?
  rw [List.find?_cons]
  cases renames with
  | given key fresh value => simp [key, fresh, value]
  | other key => simp [key]

end Names

section Fields

variable {FieldType : Type} {options result : FieldOptions} {option : AttributeOption}

/-- One option makes a field be skipped, or an extension, or named. -/
theorem take_field_ok (taken : options.take option = .ok result) :
    Renames options.rename option result.rename ∧
      result.isExtension = (options.isExtension || decide (option.key = "extend")) ∧
      result.isSkipped = (options.isSkipped || decide (option.key = "skip")) := by
  unfold FieldOptions.take at taken
  split_ifs at taken with rename extend skip
  · cases named : takeName options.rename option with
    | error fault =>
        rw [named] at taken
        cases taken
    | ok name =>
        rw [named] at taken
        cases taken
        exact ⟨take_name_ok rename named, by simp [rename], by simp [rename]⟩
  · cases bare : option.bare with
    | error fault =>
        rw [bare] at taken
        cases taken
    | ok done =>
        rw [bare] at taken
        cases taken
        exact ⟨.other rename, by simp [extend], by simp [extend]⟩
  · cases bare : option.bare with
    | error fault =>
        rw [bare] at taken
        cases taken
    | ok done =>
        rw [bare] at taken
        cases taken
        exact ⟨.other rename, by simp [skip], by simp [skip]⟩

theorem read_field_options {held : List AttributeOption}
    (read : readOptions FieldOptions.take options held = .ok result) :
    result = ⟨options.rename.or (newName? held), options.isExtension || occurs "extend" held,
      options.isSkipped || occurs "skip" held⟩ := by
  induction held generalizing options with
  | nil =>
      cases read
      simp [newName?, occurs]
  | cons option rest induction =>
      rw [readOptions] at read
      split at read
      · cases read
      · rename_i next taken
        obtain ⟨renames, extension, skipped⟩ := take_field_ok taken
        rw [induction read, renames.name, extension, skipped]
        simp [occurs, Bool.or_assoc]

theorem field_options_ok {attributes : List Attribute}
    (accepted : FieldOptions.ofAttributes attributes = .ok options) :
    options = ⟨newName? (optionsOf attributes), occurs "extend" (optionsOf attributes),
      occurs "skip" (optionsOf attributes)⟩ := by
  unfold FieldOptions.ofAttributes at accepted
  split at accepted
  · cases accepted
  · rename_i read given
    split_ifs at accepted
    cases accepted
    simpa [FieldOptions.none] using read_field_options (read_attributes_ok given)

/-- The declared fields are those that are not skipped, in order. -/
theorem declared_fields {fields : List (ItemField FieldType)} {declared : List (DeclaredField FieldType)}
    (declares : declareFields fields = .ok declared) :
    declared = (fields.filter fun field => !field.isSkipped).map ItemField.declaration := by
  induction fields generalizing declared with
  | nil =>
      cases declares
      rfl
  | cons field rest induction =>
      rw [declareFields] at declares
      split at declares
      · cases declares
      · rename_i options accepted
        obtain rfl := field_options_ok accepted
        split at declares
        · cases declares
        · rename_i others further
          have tail := induction further
          dsimp only at declares
          split_ifs at declares with skipped
          · cases declares
            have omitted : field.isSkipped = true := skipped
            rw [List.filter_cons_of_neg (by simp [omitted]), tail]
          · cases declares
            have kept : field.isSkipped = false := by simpa [ItemField.isSkipped] using skipped
            rw [List.filter_cons_of_pos (by simp [kept]), List.map_cons, ← tail]
            rfl

end Fields

section Variants

theorem read_variant_options {present result : Option String} {held : List AttributeOption}
    (read : readOptions takeVariantOption present held = .ok result) :
    result = present.or (newName? held) := by
  induction held generalizing present with
  | nil =>
      cases read
      simp [newName?]
  | cons option rest induction =>
      rw [readOptions] at read
      split at read
      · cases read
      · rename_i next taken
        unfold takeVariantOption at taken
        split_ifs at taken with rename
        cases named : takeName present option with
        | error fault =>
            rw [named] at taken
            cases taken
        | ok name =>
            rw [named] at taken
            cases taken
            rw [induction read, (take_name_ok rename named).name]

/-- Every variant is an enumerator. -/
theorem declared_variants {variants : List ItemVariant} {declared : List DeclaredEnumerator}
    (declares : declareVariants variants = .ok declared) :
    declared = variants.map fun variant => ⟨variant.finalName, variant.name⟩ := by
  induction variants generalizing declared with
  | nil =>
      cases declares
      rfl
  | cons variant rest induction =>
      rw [declareVariants] at declares
      split_ifs at declares
      split at declares
      · cases declares
      · rename_i rename accepted
        obtain rfl := read_variant_options (read_attributes_ok accepted)
        split at declares
        · cases declares
        · rename_i others further
          cases declares
          rw [List.map_cons, ← induction further, Option.none_or]
          rfl

end Variants

end Marshal.Derivation
