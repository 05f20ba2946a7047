import Marshal.Proofs.Derivation.Options

/-!
# Which items are accepted

The members of an item are derived exactly if the item is as documented: a structure with named fields
and without lifetimes, where each option of the item leaves the members to be declared by hand, and each
field is renamed at most once, extended or not, or else skipped. Options are read one after the other
and refused at different points, but neither this nor what is derived depends on how those of a field
are ordered, or shared out among its attributes.
-/

namespace Marshal.Derivation

/-- That the attributes that count hold options. -/
def Listed (attributes : List Attribute) : Prop :=
  ∀ clause ∈ attributes, clause.path = "assemble" → ∃ options, clause.form = .options options

/-- The options that a field can be given. -/
inductive IsFieldOption (option : AttributeOption) : Prop
  | rename {name : String} (key : option.key = "rename") (value : option.value = some (.text name))
      (nonempty : name ≠ "")
  | extend (key : option.key = "extend") (bare : option.value = none)
  | skip (key : option.key = "skip") (bare : option.value = none)

/-- The options that give a new name. -/
def renames (options : List AttributeOption) : List AttributeOption :=
  options.filter fun option => option.key = "rename"

/-- That the options of a field are as documented: each is known, at most one of them gives a name, and
a field that is skipped has no others. -/
structure DocumentedField (attributes : List Attribute) : Prop where
  listed : Listed attributes
  known : ∀ option ∈ optionsOf attributes, IsFieldOption option
  once : (renames (optionsOf attributes)).length ≤ 1
  alone : occurs "skip" (optionsOf attributes) = true →
    occurs "rename" (optionsOf attributes) = false ∧ occurs "extend" (optionsOf attributes) = false

/-- The option of an item that leaves its members to be declared by hand. -/
def byHand : AttributeOption := ⟨"Structure", some (.bool false)⟩

/-- That an item is as documented. -/
structure Item.Documented {FieldType : Type} (item : Item FieldType) : Prop where
  parameters : ∀ name, .lifetime name ∉ item.parameters
  listed : Listed item.attributes
  options : ∀ option ∈ optionsOf item.attributes, option = byHand
  fields : ∃ fields, item.body = .named fields ∧
    ∀ field ∈ fields, DocumentedField field.attributes

section Reading

variable {State : Type} {take : State → AttributeOption → Except DerivationFault State}
  {state result : State}

theorem options_listed (clause : Attribute) : clause.options = .ok clause.held ↔
    (clause.path = "assemble" → ∃ options, clause.form = .options options) := by
  unfold Attribute.options Attribute.held
  split_ifs with counts
  · cases clause.form <;> simp [counts]
  · simp [counts]

theorem read_options_split {first second : List AttributeOption}
    (read : readOptions take state (first ++ second) = .ok result) :
    ∃ middle, readOptions take state first = .ok middle ∧
      readOptions take middle second = .ok result := by
  induction first generalizing state with
  | nil => exact ⟨state, rfl, read⟩
  | cons option rest induction =>
      rw [List.cons_append, readOptions] at read
      rw [readOptions]
      split at read
      · cases read
      · exact induction read

/-- Attributes are read as the options that they hold, if they hold any. -/
theorem read_attributes_iff (attributes : List Attribute) :
    readAttributes take state attributes = .ok result ↔
      Listed attributes ∧ readOptions take state (optionsOf attributes) = .ok result := by
  induction attributes generalizing state with
  | nil => exact ⟨fun read => ⟨nofun, read⟩, And.right⟩
  | cons clause rest induction =>
      rw [readAttributes, Listed, List.forall_mem_cons, ← options_listed, and_assoc]
      constructor
      · intro read
        split at read
        · cases read
        · rename_i options own
          obtain rfl := options_held own
          split at read
          · cases read
          · rename_i next taken
            obtain ⟨listed, further⟩ := induction.mp read
            exact ⟨own, listed, read_options_append taken further⟩
      · rintro ⟨own, listed, read⟩
        obtain ⟨next, taken, further⟩ := read_options_split read
        rw [own]
        dsimp only
        rw [taken]
        exact induction.mpr ⟨listed, further⟩

theorem read_option_accepted (option : AttributeOption) (rest : List AttributeOption) :
    (∃ result, readOptions take state (option :: rest) = .ok result) ↔
      ∃ next, take state option = .ok next ∧ ∃ result, readOptions take next rest = .ok result := by
  rw [readOptions]
  cases take state option <;> simp

end Reading

theorem map_accepted {First Second : Type} (change : First → Second)
    (outcome : Except DerivationFault First) :
    (∃ result, outcome.map change = .ok result) ↔ ∃ value, outcome = .ok value := by
  cases outcome <;> simp [Except.map]

section Names

variable {present next : Option String} {option : AttributeOption} {rest : List AttributeOption}

theorem take_name_accepted (present : Option String) (option : AttributeOption) :
    (∃ name, takeName present option = .ok name) ↔
      present = none ∧ ∃ name, option.value = some (.text name) ∧ name ≠ "" := by
  unfold takeName AttributeOption.text
  cases present with
  | some old => simp
  | none =>
      rcases option.value with _ | (name | _ | _)
      · simp
      · by_cases empty : name = "" <;> simp [empty]
      · simp
      · simp

/-- How many names there are, the one that has been taken and those that are still given. -/
def namings (present : Option String) (held : List AttributeOption) : Nat :=
  (renames held).length + if present.isSome then 1 else 0

/-- The step of the count: a name that is taken is no longer to come. -/
theorem Renames.namings (step : Renames present option next) :
    namings next rest = Derivation.namings present (option :: rest) := by
  unfold Derivation.namings renames
  rw [List.filter_cons]
  cases step with
  | given key fresh value => simp [key, fresh]
  | other key => simp [key]

end Names

section Fields

variable {FieldType : Type} {held : List AttributeOption}

theorem bare_accepted (option : AttributeOption) :
    (∃ done, option.bare = .ok done) ↔ option.value = none := by
  unfold AttributeOption.bare
  cases option.value <;> simp

theorem take_field_accepted (options : FieldOptions) (option : AttributeOption) :
    (∃ result, options.take option = .ok result) ↔
      IsFieldOption option ∧ (option.key = "rename" → options.rename = none) := by
  unfold FieldOptions.take
  split_ifs with rename extend skip
  · rw [map_accepted, take_name_accepted]
    constructor
    · rintro ⟨fresh, name, value, nonempty⟩
      exact ⟨.rename rename value nonempty, fun _ => fresh⟩
    · rintro ⟨known, fresh⟩
      cases known with
      | rename _ value nonempty => exact ⟨fresh rename, _, value, nonempty⟩
      | extend key | skip key => simp [rename] at key
  · rw [map_accepted, bare_accepted]
    refine ⟨fun bare => ⟨.extend extend bare, fun same => absurd same rename⟩, fun ⟨known, _⟩ => ?_⟩
    cases known with
    | rename key => exact absurd key rename
    | extend _ bare => exact bare
    | skip _ bare => exact bare
  · rw [map_accepted, bare_accepted]
    refine ⟨fun bare => ⟨.skip skip bare, fun same => absurd same rename⟩, fun ⟨known, _⟩ => ?_⟩
    cases known with
    | rename key => exact absurd key rename
    | extend _ bare => exact bare
    | skip _ bare => exact bare
  · refine ⟨nofun, fun ⟨known, _⟩ => ?_⟩
    cases known with
    | rename key => exact absurd key rename
    | extend key => exact absurd key extend
    | skip key => exact absurd key skip

/-- Options are read through if each is known and there is one name at most. -/
theorem read_fields_accepted (options : FieldOptions) (held : List AttributeOption) :
    (∃ result, readOptions FieldOptions.take options held = .ok result) ↔
      (∀ option ∈ held, IsFieldOption option) ∧ namings options.rename held ≤ 1 := by
  induction held generalizing options with
  | nil =>
      refine ⟨fun _ => ⟨nofun, ?_⟩, fun _ => ⟨options, rfl⟩⟩
      cases options.rename <;> simp [namings, renames]
  | cons option rest induction =>
      rw [read_option_accepted, List.forall_mem_cons, and_assoc]
      constructor
      · rintro ⟨next, taken, further⟩
        obtain ⟨known, names⟩ := (induction next).mp further
        refine ⟨((take_field_accepted options option).mp ⟨next, taken⟩).1, known, ?_⟩
        rwa [← (take_field_ok taken).1.namings]
      · rintro ⟨own, known, names⟩
        have fresh (key : option.key = "rename") : options.rename = none := by
          rw [namings, renames, List.filter_cons, if_pos (by simp [key]), List.length_cons] at names
          cases present : options.rename with
          | none => rfl
          | some old =>
              rw [present, Option.isSome_some, if_pos rfl] at names
              omega
        obtain ⟨next, taken⟩ := (take_field_accepted options option).mpr ⟨own, fresh⟩
        refine ⟨next, taken, (induction next).mpr ⟨known, ?_⟩⟩
        rwa [(take_field_ok taken).1.namings]

theorem new_name_some (known : ∀ option ∈ held, IsFieldOption option) :
    (newName? held).isSome = occurs "rename" held := by
  unfold newName? occurs
  cases found : held.find? fun option => option.key = "rename" with
  | none =>
      rw [List.find?_eq_none] at found
      simpa using found
  | some option =>
      have inside := List.mem_of_find?_eq_some found
      have key := List.find?_some found
      rw [List.any_eq_true.mpr ⟨option, inside, key⟩]
      cases known option inside with
      | rename _ value => simp [value]
      | extend other | skip other => simp [other] at key

/-- The options of a field are accepted if they are as documented. -/
theorem field_options_accepted (attributes : List Attribute) :
    (∃ options, FieldOptions.ofAttributes attributes = .ok options) ↔
      DocumentedField attributes := by
  have accepted := read_fields_accepted .none (optionsOf attributes)
  unfold FieldOptions.ofAttributes
  constructor
  · rintro ⟨options, taken⟩
    split at taken
    · cases taken
    · rename_i result read
      obtain ⟨listed, through⟩ := (read_attributes_iff attributes).mp read
      obtain ⟨known, names⟩ := accepted.mp ⟨result, through⟩
      have same := read_field_options through
      split_ifs at taken with combined
      refine ⟨listed, known, names, fun skipped => ?_⟩
      rw [same] at combined
      simpa [FieldOptions.none, skipped, new_name_some known] using combined
  · rintro ⟨listed, known, once, alone⟩
    obtain ⟨result, through⟩ := accepted.mpr ⟨known, once⟩
    have same := read_field_options through
    rw [(read_attributes_iff attributes).mpr ⟨listed, through⟩]
    refine ⟨result, if_neg ?_⟩
    rw [same]
    cases skipped : occurs "skip" (optionsOf attributes) with
    | false => simp [FieldOptions.none]
    | true =>
        obtain ⟨renamed, extended⟩ := alone skipped
        simp [FieldOptions.none, new_name_some known, renamed, extended]

theorem declare_fields_accepted (fields : List (ItemField FieldType)) :
    (∃ declared, declareFields fields = .ok declared) ↔
      ∀ field ∈ fields, DocumentedField field.attributes := by
  induction fields with
  | nil => simp [declareFields]
  | cons field rest induction =>
      rw [List.forall_mem_cons, ← field_options_accepted, ← induction, declareFields]
      cases FieldOptions.ofAttributes field.attributes with
      | error fault => simp
      | ok options =>
          cases declareFields rest with
          | error fault => simp
          | ok declared =>
              dsimp only
              refine ⟨fun _ => ⟨⟨options, rfl⟩, declared, rfl⟩, fun _ => ?_⟩
              split_ifs <;> exact ⟨_, rfl⟩

end Fields

section Items

variable {FieldType : Type}

theorem take_type_option (derives : Bool) (option : AttributeOption) {result : Bool} :
    takeTypeOption derives option = .ok result ↔ option = byHand ∧ result = false := by
  obtain ⟨key, value⟩ := option
  unfold takeTypeOption AttributeOption.bool byHand
  dsimp only
  split_ifs with known
  · rcases value with _ | (_ | (_ | _) | _) <;> simp [known, eq_comm]
  · simp [known]

theorem read_type_options (derives : Bool) (held : List AttributeOption) {result : Bool} :
    readOptions takeTypeOption derives held = .ok result ↔
      (∀ option ∈ held, option = byHand) ∧ result = (derives && held.isEmpty) := by
  induction held generalizing derives with
  | nil => simp [readOptions, eq_comm]
  | cons option rest induction =>
      rw [readOptions, List.forall_mem_cons]
      cases taken : takeTypeOption derives option with
      | error fault =>
          constructor
          · intro read
            cases read
          · rintro ⟨⟨own, -⟩, -⟩
            rw [(take_type_option derives option).mpr ⟨own, rfl⟩] at taken
            cases taken
      | ok next =>
          obtain ⟨own, rfl⟩ := (take_type_option derives option).mp taken
          simp [induction, own]

/-- The fields that are declared. -/
def ItemBody.kept : ItemBody FieldType → List (ItemField FieldType)
  | .named fields => fields.filter fun field => !field.isSkipped
  | .unnamed | .union | .variants _ => []

/-- What is derived for an item as documented. -/
def Item.derivation (item : Item FieldType) : DerivedStructure FieldType :=
  ⟨item.name, item.parameters,
    if (optionsOf item.attributes).isEmpty then some (item.body.kept.map ItemField.declaration)
    else none⟩

theorem body_fields (body : ItemBody FieldType) {declared : List (DeclaredField FieldType)} :
    body.declaredFields = .ok declared ↔
      (∃ fields, body = .named fields ∧ ∀ field ∈ fields, DocumentedField field.attributes) ∧
        declared = body.kept.map ItemField.declaration := by
  cases body with
  | named fields =>
      rw [ItemBody.declaredFields]
      constructor
      · intro declares
        exact ⟨⟨fields, rfl, (declare_fields_accepted fields).mp ⟨declared, declares⟩⟩,
          declared_fields declares⟩
      · rintro ⟨⟨_, same, documented⟩, rfl⟩
        cases same
        obtain ⟨declared, declares⟩ := (declare_fields_accepted fields).mpr documented
        rw [declares, declared_fields declares]
        rfl
  | unnamed | union | variants _ => simp [ItemBody.declaredFields]

theorem any_lifetime (parameters : List Parameter) :
    parameters.any Parameter.isLifetime = true ↔ ∃ name, .lifetime name ∈ parameters := by
  rw [List.any_eq_true]
  constructor
  · rintro ⟨parameter, inside, lifetime⟩
    cases parameter with
    | lifetime name => exact ⟨name, inside⟩
    | type _ | const _ => cases lifetime
  · exact fun ⟨name, inside⟩ => ⟨.lifetime name, inside, rfl⟩

/-- The members of an item are derived exactly if it is as documented. -/
theorem derive_iff (item : Item FieldType) {derived : DerivedStructure FieldType} :
    item.deriveStructure = .ok derived ↔ item.Documented ∧ derived = item.derivation := by
  unfold Item.deriveStructure
  constructor
  · intro accepted
    split_ifs at accepted with lifetimes
    split at accepted
    · cases accepted
    · rename_i derives read
      split at accepted
      · cases accepted
      · rename_i declared declares
        cases accepted
        rw [any_lifetime, not_exists] at lifetimes
        obtain ⟨listed, through⟩ := (read_attributes_iff item.attributes).mp read
        obtain ⟨options, rfl⟩ := (read_type_options true _).mp through
        obtain ⟨fields, rfl⟩ := (body_fields item.body).mp declares
        exact ⟨⟨lifetimes, listed, options, fields⟩, rfl⟩
  · rintro ⟨⟨parameters, listed, options, fields⟩, rfl⟩
    have read := (read_attributes_iff item.attributes).mpr
      ⟨listed, (read_type_options true _).mpr ⟨options, rfl⟩⟩
    rw [if_neg (by rwa [any_lifetime, not_exists]), read]
    dsimp only
    rw [(body_fields item.body).mpr ⟨fields, rfl⟩]
    rfl

end Items

section Rearranging

variable {FieldType : Type} {first second : List Attribute}

/-- That attributes hold the same options, in any order and shared out in any way. -/
structure Rearranged (first second : List Attribute) : Prop where
  listed : Listed first ↔ Listed second
  options : (optionsOf first).Perm (optionsOf second)

theorem Rearranged.symm (rearranged : Rearranged first second) : Rearranged second first :=
  ⟨rearranged.listed.symm, rearranged.options.symm⟩

theorem Rearranged.occurs (rearranged : Rearranged first second) (key : String) :
    Derivation.occurs key (optionsOf first) = Derivation.occurs key (optionsOf second) :=
  rearranged.options.any_eq

theorem Rearranged.documented (rearranged : Rearranged first second)
    (documented : DocumentedField first) : DocumentedField second where
  listed := rearranged.listed.mp documented.listed
  known option inside := documented.known option (rearranged.options.mem_iff.mpr inside)
  once := (rearranged.options.filter _).length_eq ▸ documented.once
  alone := by
    rw [← rearranged.occurs, ← rearranged.occurs, ← rearranged.occurs]
    exact documented.alone

/-- Where there is one name at most, it does not matter which is the first. -/
theorem new_name_iff {held : List AttributeOption} (known : ∀ option ∈ held, IsFieldOption option)
    (once : (renames held).length ≤ 1) (name : String) :
    newName? held = some name ↔ ⟨"rename", some (.text name)⟩ ∈ held := by
  have named : ⟨"rename", some (.text name)⟩ ∈ held ↔
      ⟨"rename", some (.text name)⟩ ∈ renames held := by simp [renames]
  rw [named, newName?, ← List.head?_filter, ← renames]
  cases given : renames held with
  | nil => simp
  | cons option rest =>
      have inside : option ∈ renames held := given ▸ List.mem_cons_self
      rw [renames, List.mem_filter, decide_eq_true_iff] at inside
      rw [given, List.length_cons] at once
      obtain rfl := List.eq_nil_of_length_eq_zero (Nat.le_zero.mp (Nat.le_of_succ_le_succ once))
      obtain ⟨key, value⟩ := option
      cases known _ inside.1 with
      | rename key value =>
          dsimp only at key value
          simp [key, value, eq_comm]
      | extend other | skip other => exact absurd (inside.2.symm.trans other) (by decide)

theorem Rearranged.newName (rearranged : Rearranged first second)
    (documented : DocumentedField first) :
    newName? (optionsOf first) = newName? (optionsOf second) := by
  have other := rearranged.documented documented
  refine Option.ext fun name => ?_
  rw [new_name_iff documented.known documented.once, new_name_iff other.known other.once,
    rearranged.options.mem_iff]

structure ItemField.Rearranged (first second : ItemField FieldType) : Prop where
  name : first.name = second.name
  type : first.type = second.type
  attributes : Derivation.Rearranged first.attributes second.attributes

inductive ItemBody.Rearranged : ItemBody FieldType → ItemBody FieldType → Prop
  | named {first second : List (ItemField FieldType)}
      (fields : List.Forall₂ ItemField.Rearranged first second) :
      ItemBody.Rearranged (.named first) (.named second)
  | same (body : ItemBody FieldType) : ItemBody.Rearranged body body

structure Item.Rearranged (first second : Item FieldType) : Prop where
  name : first.name = second.name
  parameters : first.parameters = second.parameters
  attributes : Derivation.Rearranged first.attributes second.attributes
  body : first.body.Rearranged second.body

theorem ItemField.Rearranged.skipped {first second : ItemField FieldType}
    (rearranged : first.Rearranged second) : first.isSkipped = second.isSkipped :=
  rearranged.attributes.occurs "skip"

theorem ItemField.Rearranged.declaration {first second : ItemField FieldType}
    (rearranged : first.Rearranged second) (documented : DocumentedField first.attributes) :
    first.declaration = second.declaration := by
  unfold ItemField.declaration ItemField.finalName ItemField.isExtension
  rw [rearranged.name, rearranged.type, rearranged.attributes.occurs,
    rearranged.attributes.newName documented]

theorem fields_rearranged {first second : List (ItemField FieldType)}
    (rearranged : List.Forall₂ ItemField.Rearranged first second)
    (documented : ∀ field ∈ first, DocumentedField field.attributes) :
    (∀ field ∈ second, DocumentedField field.attributes) ∧
      (first.filter fun field => !field.isSkipped).map ItemField.declaration =
        (second.filter fun field => !field.isSkipped).map ItemField.declaration := by
  induction rearranged with
  | nil => exact ⟨nofun, rfl⟩
  | @cons field other first second own rest induction =>
      rw [List.forall_mem_cons] at documented ⊢
      obtain ⟨further, same⟩ := induction documented.2
      refine ⟨⟨own.attributes.documented documented.1, further⟩, ?_⟩
      simp only [List.filter_cons, own.skipped]
      split_ifs
      · rw [List.map_cons, List.map_cons, own.declaration documented.1, same]
      · exact same

theorem ItemBody.Rearranged.symm {first second : ItemBody FieldType}
    (rearranged : first.Rearranged second) : second.Rearranged first := by
  cases rearranged with
  | named fields =>
      exact .named (fields.flip.imp fun _ _ own =>
        ⟨own.name.symm, own.type.symm, own.attributes.symm⟩)
  | same => exact .same _

theorem Item.Rearranged.symm {first second : Item FieldType} (rearranged : first.Rearranged second) :
    second.Rearranged first :=
  ⟨rearranged.name.symm, rearranged.parameters.symm, rearranged.attributes.symm,
    rearranged.body.symm⟩

theorem Item.Rearranged.documented {first second : Item FieldType}
    (rearranged : first.Rearranged second) (documented : first.Documented) :
    second.Documented ∧ first.derivation = second.derivation := by
  obtain ⟨fields, body, accepted⟩ := documented.fields
  have bodies : (∃ fields, second.body = .named fields ∧
      ∀ field ∈ fields, DocumentedField field.attributes) ∧
        first.body.kept.map ItemField.declaration = second.body.kept.map ItemField.declaration := by
    have bodies := rearranged.body
    rw [body] at bodies ⊢
    generalize second.body = other at bodies
    cases bodies with
    | named rest =>
        obtain ⟨others, same⟩ := fields_rearranged rest accepted
        exact ⟨⟨_, rfl, others⟩, same⟩
    | same => exact ⟨⟨fields, rfl, accepted⟩, rfl⟩
  refine ⟨⟨?_, rearranged.attributes.listed.mp documented.listed, fun option inside => ?_,
    bodies.1⟩, ?_⟩
  · exact rearranged.parameters ▸ documented.parameters
  · exact documented.options option (rearranged.attributes.options.mem_iff.mpr inside)
  · unfold Item.derivation
    rw [rearranged.name, rearranged.parameters, bodies.2,
      rearranged.attributes.options.isEmpty_eq]

/-- What is derived does not depend on how options are ordered, or shared out among attributes. -/
theorem Item.Rearranged.derives {first second : Item FieldType}
    (rearranged : first.Rearranged second) {derived : DerivedStructure FieldType}
    (accepted : first.deriveStructure = .ok derived) : second.deriveStructure = .ok derived := by
  obtain ⟨documented, rfl⟩ := (derive_iff first).mp accepted
  obtain ⟨other, same⟩ := rearranged.documented documented
  exact (derive_iff second).mpr ⟨other, same⟩

end Rearranging

section Requiring

variable {FieldType : Type} {item : Item FieldType}

/-- What the members of a generic item ask for: that the parameters that are types live as long as the
program does, and what the types of the fields that are not skipped have to provide. -/
inductive Item.Requires (item : Item FieldType) : Requirement FieldType → Prop
  | parameter {name : String} (inside : .type name ∈ item.parameters) :
      item.Requires (.parameterIsStatic name)
  | extension {field : ItemField FieldType} (kept : field ∈ item.body.kept)
      (extended : field.isExtension = true) : item.Requires (.fieldIsStructure field.type)
  | plain {field : ItemField FieldType} (kept : field ∈ item.body.kept)
      (plain : field.isExtension = false) : item.Requires (.fieldIsAssembler field.type)

theorem mem_static_parameters (derived : DerivedStructure FieldType)
    (requirement : Requirement FieldType) : requirement ∈ derived.staticParameters ↔
      ∃ name, .type name ∈ derived.parameters ∧ requirement = .parameterIsStatic name := by
  rw [DerivedStructure.staticParameters, List.mem_flatMap]
  constructor
  · rintro ⟨parameter, inside, own⟩
    cases parameter with
    | type name => exact ⟨name, inside, List.mem_singleton.mp own⟩
    | lifetime _ | const _ => cases own
  · rintro ⟨name, inside, rfl⟩
    exact ⟨.type name, inside, List.mem_singleton.mpr rfl⟩

/-- The implementation that holds the members is there unless they are declared by hand. -/
theorem mem_implementations (derived : DerivedStructure FieldType)
    (requirements : List (Requirement FieldType)) :
    ⟨.members, requirements⟩ ∈ derived.implementations ↔
      ∃ fields, derived.declared = some fields ∧
        requirements = derived.structureRequirements fields := by
  unfold DerivedStructure.implementations
  cases derived.declared <;> simp

theorem required (generic : item.parameters ≠ []) (requirement : Requirement FieldType) :
    requirement ∈ item.derivation.structureRequirements
      (item.body.kept.map ItemField.declaration) ↔ item.Requires requirement := by
  have counts : item.derivation.isGeneric = true := by
    simpa [DerivedStructure.isGeneric, Item.derivation] using generic
  rw [DerivedStructure.structureRequirements, if_pos counts, List.mem_append,
    mem_static_parameters, List.map_map, List.mem_map]
  constructor
  · rintro (⟨name, inside, rfl⟩ | ⟨field, inside, rfl⟩)
    · exact .parameter inside
    · rw [Function.comp_apply, DerivedStructure.fieldRequirement]
      split_ifs with extended
      · exact .extension inside extended
      · exact .plain inside (by simpa [ItemField.declaration] using extended)
  · intro required
    cases required with
    | parameter inside => exact .inl ⟨_, inside, rfl⟩
    | extension inside extended => exact .inr ⟨_, inside, if_pos extended⟩
    | plain inside plain =>
        exact .inr ⟨_, inside, if_neg (by simpa [ItemField.declaration] using plain)⟩

end Requiring

/-- The members of an item are derived exactly if it is as documented, and what is derived is the same
however the options of a field are ordered and shared out among its attributes: the fields that are
not skipped, each as an extension or plainly, under the one name that it is given or its own. Unless
the item leaves its members to be declared by hand, a generic item asks for each parameter that is a
type to live as long as the program, and for the types of these fields to be structures where they are
extensions, and to be assembled where they are not. -/
theorem derived_exactly_as_documented {FieldType : Type} :
    (∀ item : Item FieldType, (∃ derived, item.deriveStructure = .ok derived) ↔ item.Documented) ∧
    (∀ first second : Item FieldType, first.Rearranged second → ∀ derived,
      first.deriveStructure = .ok derived ↔ second.deriveStructure = .ok derived) ∧
    ∀ (item : Item FieldType) (derived : DerivedStructure FieldType),
      item.deriveStructure = .ok derived →
        (∀ declared, derived.declared = some declared ↔ optionsOf item.attributes = [] ∧
          declared = item.body.kept.map ItemField.declaration) ∧
        (∀ field ∈ item.body.kept, ∀ name,
          ⟨"rename", some (.text name)⟩ ∈ optionsOf field.attributes → field.finalName = name) ∧
        ((∃ requirements, ⟨.members, requirements⟩ ∈ derived.implementations) ↔
          optionsOf item.attributes = []) ∧
        (item.parameters ≠ [] → ∀ requirements,
          ⟨.members, requirements⟩ ∈ derived.implementations →
            ∀ requirement, requirement ∈ requirements ↔ item.Requires requirement) := by
  refine ⟨fun item => ?_, fun first second rearranged derived => ?_, fun item derived accepted => ?_⟩
  · simp [derive_iff]
  · exact ⟨rearranged.derives, rearranged.symm.derives⟩
  · obtain ⟨documented, rfl⟩ := (derive_iff item).mp accepted
    have declares (declared : List (DeclaredField FieldType)) :
        item.derivation.declared = some declared ↔ optionsOf item.attributes = [] ∧
          declared = item.body.kept.map ItemField.declaration := by
      unfold Item.derivation
      by_cases held : optionsOf item.attributes = []
      · simpa [held] using eq_comm
      · simp [held]
    refine ⟨declares, fun field inside name given => ?_, ?_, fun generic requirements inside => ?_⟩
    · obtain ⟨fields, body, own⟩ := documented.fields
      rw [body] at inside
      have known := own field (List.mem_of_mem_filter inside)
      rw [ItemField.finalName, (new_name_iff known.known known.once name).mpr given]
      rfl
    · constructor
      · rintro ⟨requirements, inside⟩
        obtain ⟨declared, same, -⟩ := (mem_implementations _ _).mp inside
        exact ((declares declared).mp same).1
      · exact fun held => ⟨_, (mem_implementations _ _).mpr ⟨_, (declares _).mpr ⟨held, rfl⟩, rfl⟩⟩
    · obtain ⟨declared, same, rfl⟩ := (mem_implementations _ _).mp inside
      obtain ⟨-, rfl⟩ := (declares declared).mp same
      exact required generic

end Marshal.Derivation

namespace Marshal

namespace Crate

open Marshal.Derivation

def item (tag : List Attribute) : Item String :=
  ⟨"Crate", [], [.type "T", .const "N"], .named
    [⟨"label", "Label", tag⟩, ⟨"content", "T", []⟩,
      ⟨"cache", "Cache", [⟨"assemble", .options [⟨"skip", none⟩]⟩]⟩]⟩

def together : List Attribute :=
  [⟨"assemble", .options [⟨"rename", some (.text "tag")⟩, ⟨"extend", none⟩]⟩]

def apart : List Attribute :=
  [⟨"assemble", .options [⟨"extend", none⟩]⟩, ⟨"doc", .assigned⟩,
    ⟨"assemble", .options [⟨"rename", some (.text "tag")⟩]⟩]

def derived : DerivedStructure String :=
  ⟨"Crate", [.type "T", .const "N"],
    some [⟨"tag", "label", "Label", true⟩, ⟨"content", "content", "T", false⟩]⟩

theorem tags_rearranged : Rearranged together apart where
  listed := by simp [Listed, together, apart]
  options := by decide

theorem rearranged : (item together).Rearranged (item apart) where
  name := rfl
  parameters := rfl
  attributes := ⟨Iff.rfl, .refl _⟩
  body := .named (.cons ⟨rfl, rfl, tags_rearranged⟩
    (.cons ⟨rfl, rfl, Iff.rfl, .refl _⟩ (.cons ⟨rfl, rfl, Iff.rfl, .refl _⟩ .nil)))

end Crate

open Crate in
/-- A crate whose tag is the label, in one attribute or in two. -/
theorem Derivation.derived_exactly_as_documented_crate :
    (item together).deriveStructure = .ok derived ∧ (item apart).Documented ∧
      (item apart).deriveStructure = .ok derived ∧
      ∀ requirement, requirement ∈ derived.structureRequirements
          [⟨"tag", "label", "Label", true⟩, ⟨"content", "content", "T", false⟩] ↔
        (item apart).Requires requirement := by
  obtain ⟨documented, rearranging, requiring⟩ := @derived_exactly_as_documented String
  have together : (item together).deriveStructure = .ok derived := by decide +kernel
  have apart := (rearranging _ _ rearranged derived).mp together
  obtain ⟨-, -, -, required⟩ := requiring _ derived apart
  exact ⟨together, (documented _).mp ⟨derived, apart⟩, apart,
    required (by simp [item]) _ (by simp [DerivedStructure.implementations, derived])⟩

end Marshal
