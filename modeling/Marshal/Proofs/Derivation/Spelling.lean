import Marshal.Proofs.Derivation.Declarations
import Marshal.Proofs.Derivation.Documented
import Marshal.Proofs.Structure.Identities

/-!
# What the spelling of identifiers decides

An identifier can be marked, so that a keyword can be one; the mark is no part of its name. Members are
named without it: whichever identifiers of a structure are marked, its documents stay what they are.
Enumerators are named by their identifiers as they are spelled, with the mark: the names of two
spellings agree exactly where each variant that is spelled otherwise is given a name.
-/

namespace Marshal

namespace Derivation

theorem plain_marked (text : String) : plainName ("r#" ++ text) = text := by
  rw [plainName, String.toList_append]
  exact String.ofList_toList

/-- That an identifier is spelled with the mark. -/
def IsMarked (identifier : String) : Prop := ['r', '#'] <+: identifier.toList

theorem plain_unmarked (identifier : String) :
    plainName identifier = identifier ↔ ¬ IsMarked identifier := by
  constructor
  · rintro same ⟨rest, spelled⟩
    have marked : identifier = "r#" ++ String.ofList rest := by
      rw [← String.toList_inj, String.toList_append, ← spelled]
      simp
    rw [marked, plain_marked] at same
    have length := congrArg String.length same
    rw [String.length_append] at length
    simp at length
  · intro unmarked
    unfold plainName
    split
    · rename_i rest spelled
      exact absurd ⟨rest, spelled.symm⟩ unmarked
    · rfl

section Spelling

variable {FieldType : Type} {first second : Item FieldType}

def ItemField.plainly (field : ItemField FieldType) : ItemField FieldType :=
  { field with name := plainName field.name }

def ItemVariant.plainly (variant : ItemVariant) : ItemVariant :=
  { variant with name := plainName variant.name }

def ItemBody.plainly : ItemBody FieldType → ItemBody FieldType
  | .named fields => .named (fields.map ItemField.plainly)
  | .variants all => .variants (all.map ItemVariant.plainly)
  | .unnamed => .unnamed
  | .union => .union

/-- An item whose fields and variants are spelled without the mark. -/
def Item.plainly (item : Item FieldType) : Item FieldType := { item with body := item.body.plainly }

/-- That two items differ in nothing but the marks of their fields and variants. -/
def Item.Respelled (first second : Item FieldType) : Prop := first.plainly = second.plainly

theorem Item.Respelled.plainly (respelled : first.Respelled second) :
    first.plainly = second.plainly := respelled

def DeclaredField.plainly (field : DeclaredField FieldType) : DeclaredField FieldType :=
  { field with field := plainName field.field }

def DerivedStructure.plainly (derived : DerivedStructure FieldType) : DerivedStructure FieldType :=
  { derived with declared := derived.declared.map (List.map DeclaredField.plainly) }

/-- The declaration of a field whose identifier is taken as it is spelled. -/
def ItemField.asSpelled (field : ItemField FieldType) : DeclaredField FieldType :=
  ⟨(newName? (optionsOf field.attributes)).getD field.name, field.name, field.type, field.isExtension⟩

theorem kept_plainly (body : ItemBody FieldType) :
    body.plainly.kept = body.kept.map ItemField.plainly := by
  cases body with
  | named fields => exact List.filter_map
  | unnamed | union | variants _ => rfl

theorem declarations_plainly (item : Item FieldType) :
    (item.body.kept.map ItemField.declaration).map DeclaredField.plainly =
      item.plainly.body.kept.map ItemField.asSpelled := by
  rw [Item.plainly, kept_plainly, List.map_map, List.map_map]
  rfl

/-- What is derived for an item says no more of the marks than the item without them does. -/
theorem derivation_plainly (item : Item FieldType) : item.derivation.plainly =
    ⟨item.plainly.name, item.plainly.parameters,
      if (optionsOf item.plainly.attributes).isEmpty then
        some (item.plainly.body.kept.map ItemField.asSpelled)
      else none⟩ := by
  unfold DerivedStructure.plainly Item.derivation
  dsimp only
  rw [apply_ite (Option.map (List.map DeclaredField.plainly)), Option.map_some, declarations_plainly]
  rfl

theorem documented_plainly (item : Item FieldType) : item.plainly.Documented ↔ item.Documented := by
  constructor
  · rintro ⟨parameters, listed, options, fields, body, documented⟩
    refine ⟨parameters, listed, options, ?_⟩
    cases own : item.body with
    | named inner =>
        refine ⟨inner, rfl, fun field inside => ?_⟩
        rw [Item.plainly, own] at body
        cases body
        exact documented field.plainly (List.mem_map_of_mem inside)
    | unnamed | union | variants _ =>
        rw [Item.plainly, own] at body
        cases body
  · rintro ⟨parameters, listed, options, fields, body, documented⟩
    refine ⟨parameters, listed, options, fields.map ItemField.plainly, ?_, fun field inside => ?_⟩
    · rw [Item.plainly, body]
      rfl
    · obtain ⟨inner, held, rfl⟩ := List.mem_map.mp inside
      exact documented inner held

/-- Spellings of an item derive the same members, but for the identifiers of their fields. -/
theorem Item.Respelled.derives (respelled : first.Respelled second)
    {derived : DerivedStructure FieldType} (accepted : first.deriveStructure = .ok derived) :
    ∃ other, second.deriveStructure = .ok other ∧ derived.plainly = other.plainly := by
  obtain ⟨documented, rfl⟩ := (derive_iff first).mp accepted
  rw [← documented_plainly, respelled.plainly, documented_plainly] at documented
  refine ⟨second.derivation, (derive_iff second).mpr ⟨documented, rfl⟩, ?_⟩
  rw [derivation_plainly, derivation_plainly, respelled.plainly]

end Spelling

section Declaring

variable {declared others : List (DeclaredField Ty)} {owner : String}
  {offset otherOffset : String → Nat} {known otherKnown : String → Except Fault (List Member)}

/-- The line of a field without identities in it. -/
def DeclaredField.unidentifiedCall (known : String → Except Fault (List Member))
    (field : DeclaredField Ty) : MemberCall :=
  let head : MemberHead := ⟨field.name, Member.noIdentity, [field.field]⟩
  if field.isExtension then .extend head (structureName field.type) (known (structureName field.type))
  else .field head field.type

theorem call_unidentified (field : DeclaredField Ty) :
    (field.call offset known).unidentified =
      field.plainly.unidentifiedCall fun base => (known base).map Member.allUnidentified := by
  unfold DeclaredField.call DeclaredField.unidentifiedCall DeclaredField.plainly
  dsimp only
  split_ifs <;> rfl

theorem call_ids_distinct (offset : String → Nat) (known : String → Except Fault (List Member))
    (distinct : (declared.map DeclaredField.field).Nodup) :
    ((declared.map (DeclaredField.call offset known)).map fun call => call.head.id).Nodup := by
  have named (field : DeclaredField Ty) : (field.call offset known).head.id.field = field.field := by
    unfold DeclaredField.call
    split_ifs <;> rfl
  refine List.Nodup.of_map FieldId.field ?_
  simpa only [List.map_map, Function.comp_def, named] using distinct

theorem declare_members_unidentified
    (same : declared.map DeclaredField.plainly = others.map DeclaredField.plainly)
    (distinct : (declared.map DeclaredField.field).Nodup)
    (othersDistinct : (others.map DeclaredField.field).Nodup)
    (extended : ∀ base, (known base).map Member.allUnidentified =
      (otherKnown base).map Member.allUnidentified) :
    (declareMembers owner offset known declared).map Member.allUnidentified =
      (declareMembers owner otherOffset otherKnown others).map Member.allUnidentified := by
  have lines (offset : String → Nat) (known : String → Except Fault (List Member))
      (declared : List (DeclaredField Ty)) :
      (declared.map (DeclaredField.call offset known)).map MemberCall.unidentified =
        (declared.map DeclaredField.plainly).map
          (DeclaredField.unidentifiedCall fun base => (known base).map Member.allUnidentified) := by
    rw [List.map_map, List.map_map]
    exact List.map_congr_left fun field _ => call_unidentified field
  refine Declaration.build_unidentified ?_ (call_ids_distinct _ _ distinct)
    (call_ids_distinct _ _ othersDistinct)
  rw [lines, lines, same, funext extended]

end Declaring

section Structures

variable {first second : Schema} {item other : Item Ty}

/-- That the fields of an item have names of their own, which the mark is no part of. -/
def Item.DistinctFields (item : Item Ty) : Prop :=
  ((fieldTypes item.body).map Prod.fst).Nodup

theorem declared_distinct (distinct : item.DistinctFields) :
    ((item.body.kept.map ItemField.declaration).map DeclaredField.field).Nodup := by
  unfold Item.DistinctFields at distinct
  cases own : item.body with
  | named fields =>
      rw [own, fieldTypes, List.map_map] at distinct
      have names : (fields.map ItemField.name).Nodup := by
        refine List.Nodup.of_map plainName ?_
        rwa [List.map_map]
      rw [List.map_map]
      exact names.sublist (List.filter_sublist.map _)
  | unnamed | union | variants _ => exact List.nodup_nil

theorem field_types_plainly (item : Item Ty) : fieldTypes item.body =
    match item.plainly.body with
    | .named fields => fields.map fun field => (field.name, field.type)
    | _ => [] := by
  unfold Item.plainly
  cases item.body with
  | named fields =>
      dsimp only [ItemBody.plainly]
      rw [List.map_map]
      rfl
  | unnamed | union | variants _ => rfl

theorem Item.Respelled.field_types (respelled : item.Respelled other) :
    fieldTypes item.body = fieldTypes other.body := by
  rw [field_types_plainly, field_types_plainly, respelled.plainly]

/-- What is known of a structure whose members are derived. -/
def derivedInfo (schema : Schema) (name : String) (item : Item Ty) : StructureInfo :=
  let identities := schema.fieldIdentities item.body
  let offset := fun field =>
    ((identities.lookup (plainName field)).map FieldId.offset).getD 0
  ⟨name, item.name, fieldTypes item.body, identities,
    .record ((fieldTypes item.body).map fun field => (field.1, schema.default field.2)),
    declareMembers name offset (fun base => (schema.structureInfo base).members)
      (item.body.kept.map ItemField.declaration)⟩

theorem add_structure_iff {schema added : Schema} {name : String}
    {byHand : List (String × FieldId) → Except Fault (List Member)}
    (derives : optionsOf item.attributes = []) :
    schema.addStructure name item byHand = .ok added ↔ item.Documented ∧
      added = { schema with structures := schema.structures ++ [derivedInfo schema name item] } := by
  unfold Schema.addStructure
  constructor
  · intro adds
    cases accepted : item.deriveStructure with
    | error fault =>
        rw [accepted] at adds
        cases adds
    | ok derived =>
        obtain ⟨documented, rfl⟩ := (derive_iff item).mp accepted
        rw [accepted] at adds
        cases adds
        refine ⟨documented, ?_⟩
        simp only [Item.derivation, derives, List.isEmpty_nil, if_true]
        rfl
  · rintro ⟨documented, rfl⟩
    rw [(derive_iff item).mpr ⟨documented, rfl⟩]
    simp only [Item.derivation, derives, List.isEmpty_nil, if_true]
    rfl

theorem derived_info_unidentified (same : first.SameUnidentified second)
    (respelled : item.Respelled other) (distinct : item.DistinctFields) (name : String) :
    (derivedInfo first name item).unidentified = (derivedInfo second name other).unidentified := by
  have label : item.plainly.name = other.plainly.name := congrArg Item.name respelled.plainly
  have othersDistinct : other.DistinctFields := by
    rwa [Item.DistinctFields, ← respelled.field_types]
  have declared : (item.body.kept.map ItemField.declaration).map DeclaredField.plainly =
      (other.body.kept.map ItemField.declaration).map DeclaredField.plainly := by
    rw [declarations_plainly, declarations_plainly, respelled.plainly]
  unfold derivedInfo StructureInfo.unidentified
  simp only [show item.name = other.name from label, respelled.field_types, same.default]
  congr 1
  exact declare_members_unidentified declared (declared_distinct distinct)
    (declared_distinct othersDistinct) same.members

/-- A structure that is added to both of two schemas, under any spelling. -/
theorem add_structure_unidentified (same : first.SameUnidentified second)
    (respelled : item.Respelled other) (distinct : item.DistinctFields)
    (derives : optionsOf item.attributes = []) {name : String}
    {byHand otherByHand : List (String × FieldId) → Except Fault (List Member)} {next further : Schema}
    (added : first.addStructure name item byHand = .ok next)
    (otherAdded : second.addStructure name other otherByHand = .ok further) :
    next.SameUnidentified further := by
  have attributes : item.plainly.attributes = other.plainly.attributes :=
    congrArg Item.attributes respelled.plainly
  have otherDerives : optionsOf other.attributes = [] := by
    rw [← derives]
    exact congrArg optionsOf attributes.symm
  obtain ⟨-, rfl⟩ := (add_structure_iff derives).mp added
  obtain ⟨-, rfl⟩ := (add_structure_iff otherDerives).mp otherAdded
  exact same.addStructure (derived_info_unidentified same respelled distinct name)

end Structures

end Derivation

namespace Schema

open Marshal.Derivation

/-- That two schemas come about in the same way, but for the marks of the fields of structures whose
members are derived. -/
inductive Respelled : Schema → Schema → Prop
  | start (schema : Schema) : Respelled schema schema
  | derived {first second next further : Schema} (earlier : Respelled first second) {name : String}
      {item other : Item Ty} (respelled : item.Respelled other) (distinct : item.DistinctFields)
      (derives : optionsOf item.attributes = [])
      {byHand otherByHand : List (String × FieldId) → Except Fault (List Member)}
      (added : first.addStructure name item byHand = .ok next)
      (otherAdded : second.addStructure name other otherByHand = .ok further) :
      Respelled next further
  | byHand {first second : Schema} (earlier : Respelled first second) {info other : StructureInfo}
      (same : info.unidentified = other.unidentified) :
      Respelled { first with structures := first.structures ++ [info] }
        { second with structures := second.structures ++ [other] }
  | enumeration {first second : Schema} (earlier : Respelled first second) (info : EnumerationInfo) :
      Respelled { first with enumerations := first.enumerations ++ [info] }
        { second with enumerations := second.enumerations ++ [info] }

theorem Respelled.unidentified {first second : Schema} (respelled : Respelled first second) :
    first.SameUnidentified second := by
  induction respelled with
  | start schema => rfl
  | derived earlier respelled distinct derives added otherAdded induction =>
      exact add_structure_unidentified induction respelled distinct derives added otherAdded
  | byHand earlier same induction => exact induction.addStructure same
  | enumeration earlier info induction => exact induction.addEnumeration info

end Schema

namespace Derivation

section Names

variable {FieldType : Type}

def ItemField.isRenamed (field : ItemField FieldType) : Bool :=
  occurs "rename" (optionsOf field.attributes)

def ItemVariant.isRenamed (variant : ItemVariant) : Bool :=
  occurs "rename" (optionsOf variant.attributes)

theorem new_name_none {held : List AttributeOption} (absent : occurs "rename" held = false) :
    newName? held = none := by
  have nowhere : held.find? (fun option => option.key = "rename") = none := by
    simpa [occurs] using absent
  rw [newName?, nowhere]
  rfl

theorem ItemField.own_name {field : ItemField FieldType} (own : field.isRenamed = false) :
    field.finalName = plainName field.name := by
  rw [ItemField.finalName, new_name_none own]
  rfl

theorem ItemVariant.own_name {variant : ItemVariant} (own : variant.isRenamed = false) :
    variant.finalName = variant.name := by
  rw [ItemVariant.finalName, new_name_none own]
  rfl

/-- The options that are accepted of a variant give it a name. -/
theorem read_variant_names {present result : Option String} {held : List AttributeOption}
    (read : readOptions takeVariantOption present held = .ok result) :
    (newName? held).isSome = occurs "rename" held := by
  cases held with
  | nil => rfl
  | cons option rest =>
      rw [readOptions] at read
      split at read
      · cases read
      · rename_i next taken
        unfold takeVariantOption at taken
        split_ifs at taken with rename
        cases named : takeName present option with
        | error fault =>
            rw [named] at taken
            cases taken
        | ok name =>
            cases take_name_ok rename named with
            | given key fresh value => simp [newName?, occurs, key, value]
            | other key => exact absurd rename key

end Names

section Enumerations

variable {item : Item Ty} {variants others : List ItemVariant} {derived : DerivedEnumeration}

theorem declared_variants_named {declared : List DeclaredEnumerator}
    (declares : declareVariants variants = .ok declared) :
    ∀ variant ∈ variants, (newName? (optionsOf variant.attributes)).isSome = variant.isRenamed := by
  induction variants generalizing declared with
  | nil => nofun
  | cons variant rest induction =>
      rw [declareVariants] at declares
      split_ifs at declares
      split at declares
      · cases declares
      · rename_i rename accepted
        split at declares
        · cases declares
        · rename_i further
          exact List.forall_mem_cons.mpr
            ⟨read_variant_names (read_attributes_ok accepted), induction further⟩

theorem derived_variants_named (body : item.body = .variants variants)
    (accepted : item.deriveEnumeration = .ok derived) :
    ∀ variant ∈ variants, (newName? (optionsOf variant.attributes)).isSome = variant.isRenamed := by
  unfold Item.deriveEnumeration at accepted
  rw [body] at accepted
  dsimp only at accepted
  split_ifs at accepted
  cases declares : declareVariants variants with
  | error fault =>
      rw [declares] at accepted
      cases accepted
  | ok declared => exact declared_variants_named declares

theorem final_name_agrees {variant other : ItemVariant} (plainly : variant.plainly = other.plainly)
    (named : (newName? (optionsOf variant.attributes)).isSome = variant.isRenamed) :
    variant.finalName = other.finalName ↔ variant.isRenamed = true ∨ variant.name = other.name := by
  have attributes : variant.plainly.attributes = other.plainly.attributes :=
    congrArg ItemVariant.attributes plainly
  rw [← named]
  unfold ItemVariant.finalName
  rw [show other.attributes = variant.attributes from attributes.symm]
  cases newName? (optionsOf variant.attributes) <;> simp

/-- Names of two spellings agree exactly where each variant that is spelled otherwise is given one. -/
theorem final_names_agree (plainly : variants.map ItemVariant.plainly = others.map ItemVariant.plainly)
    (named : ∀ variant ∈ variants,
      (newName? (optionsOf variant.attributes)).isSome = variant.isRenamed) :
    variants.map ItemVariant.finalName = others.map ItemVariant.finalName ↔
      List.Forall₂ (fun variant other => variant.isRenamed = true ∨ variant.name = other.name)
        variants others := by
  induction variants generalizing others with
  | nil =>
      obtain rfl := List.map_eq_nil_iff.mp plainly.symm
      simp
  | cons variant rest induction =>
      cases others with
      | nil => cases plainly
      | cons other others =>
          rw [List.map_cons, List.map_cons, List.cons.injEq] at plainly ⊢
          rw [List.forall_mem_cons] at named
          rw [List.forall₂_cons, final_name_agrees plainly.1 named.1, induction plainly.2 named.2]

/-- An enumerator is written as its name. -/
theorem enumerator_written (body : item.body = .variants variants)
    (accepted : item.deriveEnumeration = .ok derived) {owner : String} {table : EnumTable Int}
    (declared : derived.table owner = .ok table) {schema : Schema} {name : String}
    (known : (schema.enumerationInfo name).table = .ok table) {position : Nat} {variant : ItemVariant}
    (place : variants[position]? = some variant) (field : String) (fields : Fields) :
    schema.writeNamed (.enumeration name) (.enumerator position) field fields =
      (.ok (), fields.put field (.text variant.finalName)) := by
  rcases derived_table body accepted owner with
    ⟨-, own, same, -, mapped⟩ | ⟨-, repeated, -, refused⟩
  · rw [declared] at same
    cases same
    obtain ⟨named, -⟩ := mapped position variant place
    have spelled : (schema.enumerationInfo name).nameOf position = .ok variant.finalName := by
      unfold EnumerationInfo.nameOf
      rw [known]
      dsimp only
      rw [named]
    rw [Schema.writeNamed, Schema.write, Schema.writeAt, Val.asCode, spelled]
    rfl
  · rw [declared] at refused
    cases refused

end Enumerations

/-- Members are named without the mark of their fields, so the spelling of fields decides nothing: what
is derived for one spelling is derived for any other, and schemas that differ in the spelling of fields
have the same documents. Enumerators are named by their variants as they are spelled, which is without
the mark exactly where none is spelled with it that is given no name. The names under two spellings
agree exactly where each variant that is spelled otherwise is given one, and these names are what is
written. -/
theorem default_names_spelled {item other : Item Ty} (respelled : item.Respelled other) :
    (∀ derived, item.deriveStructure = .ok derived →
      (∀ declared, derived.declared = some declared →
        declared = item.body.kept.map ItemField.declaration ∧
        ∀ field ∈ item.body.kept, field.isRenamed = false →
          field.declaration.name = plainName field.name) ∧
      ∃ own, other.deriveStructure = .ok own ∧ derived.plainly = own.plainly) ∧
    (∀ first second : Schema, first.Respelled second → ∀ type,
      (∀ value name, first.writeNamed type value name = second.writeNamed type value name) ∧
      (∀ value, first.writeNext type value = second.writeNext type value) ∧
      (∀ target name fields,
        first.readNamed type target name fields = second.readNamed type target name fields) ∧
      ∀ target slots, first.readNext type target slots = second.readNext type target slots) ∧
    (∀ variants derived, item.body = .variants variants → item.deriveEnumeration = .ok derived →
      derived.enumerators = variants.map (fun variant => ⟨variant.finalName, variant.name⟩) ∧
      ((∀ variant ∈ variants, variant.isRenamed = false →
          variant.finalName = plainName variant.name) ↔
        ∀ variant ∈ variants, variant.isRenamed = false → ¬ IsMarked variant.name) ∧
      (∀ others, other.body = .variants others →
        (variants.map ItemVariant.finalName = others.map ItemVariant.finalName ↔
          List.Forall₂ (fun variant other => variant.isRenamed = true ∨ variant.name = other.name)
            variants others)) ∧
      ∀ owner table, derived.table owner = .ok table → ∀ (schema : Schema) name,
        (schema.enumerationInfo name).table = .ok table → ∀ (position : Nat) variant,
          variants[position]? = some variant → ∀ field fields,
            schema.writeNamed (.enumeration name) (.enumerator position) field fields =
              (.ok (), fields.put field (.text variant.finalName))) ∧
    (∀ text, plainName ("r#" ++ text) = text) ∧
    ∀ identifier, plainName identifier = identifier ↔ ¬ IsMarked identifier := by
  refine ⟨fun derived accepted => ⟨fun declared given => ?_, respelled.derives accepted⟩,
    fun first second schemas => schemas.unidentified.documents, fun variants derived body accepted => ?_,
    plain_marked, plain_unmarked⟩
  · obtain ⟨-, rfl⟩ := (derive_iff item).mp accepted
    refine ⟨?_, fun field _ => ItemField.own_name⟩
    unfold Item.derivation at given
    split_ifs at given
    exact (Option.some.inj given).symm
  · refine ⟨(derived_enumerators body accepted).2, forall₃_congr fun variant _ own => ?_,
      fun others otherBody => ?_, fun owner table declared schema name known position variant place =>
        enumerator_written body accepted declared known place⟩
    · rw [ItemVariant.own_name own, eq_comm, plain_unmarked]
    · refine final_names_agree ?_ (derived_variants_named body accepted)
      have bodies : item.plainly.body = other.plainly.body :=
        congrArg Item.body respelled.plainly
      rw [Item.plainly, Item.plainly, body, otherBody] at bodies
      exact ItemBody.variants.inj bodies

end Derivation

namespace Tag

open Marshal.Derivation

/-- A tag with a field for its type, under either spelling. -/
def item (spelling : String) : Item Ty :=
  ⟨"Tag", [], [], .named [⟨spelling, .int .u8, []⟩, ⟨"text", .string, []⟩]⟩

def schema (spelling : String) : Schema :=
  ⟨[derivedInfo .empty "Tag" (item spelling)], [], []⟩

def value : Val := .record [("type", .int 4), ("text", .text "late")]

/-- The kinds of tags, one of which can be named by a keyword. -/
def kind (spelling : String) : Item Ty :=
  ⟨"Kind", [], [], .variants [⟨spelling, [], false⟩, ⟨"other", [], false⟩]⟩

/-- What is derived for the kinds. -/
def kinds (spelling : String) : DerivedEnumeration :=
  ⟨"Kind", [⟨spelling, spelling⟩, ⟨"other", "other"⟩]⟩

theorem documented_bare : DocumentedField [] where
  listed := nofun
  known := nofun
  once := Nat.zero_le 1
  alone := nofun

theorem documented (spelling : String) : (item spelling).Documented where
  parameters := nofun
  listed := nofun
  options := nofun
  fields := ⟨_, rfl, by simp [documented_bare]⟩

theorem marked : plainName "r#type" = plainName "type" := by decide +kernel

theorem item_respelled : (item "r#type").Respelled (item "type") := by
  simp [Item.Respelled, Item.plainly, ItemBody.plainly, ItemField.plainly, item, marked]

theorem kind_respelled : (kind "r#type").Respelled (kind "type") := by
  simp [Item.Respelled, Item.plainly, ItemBody.plainly, ItemVariant.plainly, kind, marked]

theorem item_distinct : (item "r#type").DistinctFields := by
  unfold Item.DistinctFields
  decide +kernel

theorem added (spelling : String) :
    Schema.empty.addStructure "Tag" (item spelling) (fun _ => .ok []) = .ok (schema spelling) :=
  (add_structure_iff rfl).mpr ⟨documented spelling, rfl⟩

theorem schemas_respelled : (schema "r#type").Respelled (schema "type") :=
  .derived (.start .empty) item_respelled item_distinct rfl (added "r#type") (added "type")

end Tag

open Tag in
/-- A tag that is written alike under both spellings, and its kinds, which are not. -/
theorem Derivation.default_names_spelled_tag :
    let marked := (schema "r#type").writeNamed (.record "Tag") value "tag" []
    let unmarked := (schema "type").writeNamed (.record "Tag") value "tag" []
    (∃ derived declared, (item "r#type").deriveStructure = .ok derived ∧
      derived.declared = some declared ∧ declared.map DeclaredField.name = ["type", "text"]) ∧
    (marked.1 = .ok () ∧ marked = unmarked) ∧
    (kind "r#type").deriveEnumeration = .ok (kinds "r#type") ∧
    (kinds "r#type").enumerators.map DeclaredEnumerator.name = ["r#type", "other"] := by
  intro marked unmarked
  obtain ⟨structures, documents, -⟩ := default_names_spelled item_respelled
  obtain ⟨-, -, enumerations, -⟩ := default_names_spelled kind_respelled
  have accepted : (item "r#type").deriveStructure = .ok (item "r#type").derivation :=
    (derive_iff _).mpr ⟨documented "r#type", rfl⟩
  obtain ⟨declared, -⟩ := (structures _ accepted).1 _ rfl
  obtain ⟨written, -⟩ := documents _ _ schemas_respelled (.record "Tag")
  have derives : (kind "r#type").deriveEnumeration = .ok (kinds "r#type") := by decide +kernel
  obtain ⟨enumerators, -⟩ := enumerations _ _ rfl derives
  refine ⟨⟨_, _, accepted, rfl, ?_⟩, ⟨by decide +kernel, congrFun (written value "tag") []⟩,
    derives, ?_⟩
  · rw [declared]
    decide +kernel
  · rw [enumerators]
    decide +kernel

open Tag in
/-- A kind that is a keyword is named with the mark, so its spelling is seen in documents. -/
theorem Derivation.variants_keep_the_mark :
    (¬ ∀ (item : Item Ty) variants derived, item.body = .variants variants →
      item.deriveEnumeration = .ok derived → ∀ enumerator ∈ derived.enumerators,
        ∀ variant ∈ variants, variant.name = enumerator.variant → variant.isRenamed = false →
          enumerator.name = plainName variant.name) ∧
    (kind "r#type").Respelled (kind "type") ∧
    ∃ first second, Schema.empty.addEnumeration "Kind" (kind "r#type") 0 = .ok first ∧
      Schema.empty.addEnumeration "Kind" (kind "type") 0 = .ok second ∧
      first.writeNamed (.enumeration "Kind") (.enumerator 0) "kind" [] =
        (.ok (), [("kind", .text "r#type")]) ∧
      second.writeNamed (.enumeration "Kind") (.enumerator 0) "kind" [] =
        (.ok (), [("kind", .text "type")]) := by
  refine ⟨fun claimed => ?_, kind_respelled, _, _, rfl, rfl, ?_, ?_⟩
  · have accepted : (kind "r#type").deriveEnumeration = .ok (kinds "r#type") := by decide +kernel
    exact absurd (claimed _ _ _ rfl accepted _ List.mem_cons_self _ List.mem_cons_self rfl rfl)
      (by decide +kernel)
  · simp only [Schema.writeNamed, Schema.write, Schema.writeAt]
    rfl
  · simp only [Schema.writeNamed, Schema.write, Schema.writeAt]
    rfl

end Marshal
