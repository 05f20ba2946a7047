import Marshal.Derivation.Declaration
import Marshal.Proofs.Derivation.Options
import Marshal.Proofs.Structure.Acceptance
import Marshal.Proofs.Structure.Tables

/-!
# What is derived is declared

A derivation declares each field once, so no field of a derived declaration is repeated, whatever
room the fields take. Names are what is left to go wrong: those that fields are declared under, and
those that are written once extensions are taken apart. Of an enumeration only the names of its
variants can be repeated, since the variants themselves are distinct.
-/

namespace Marshal

namespace Derivation

/-- That an item has named fields, each of which has another name, and that its members are derived
to be declared from some of them. -/
structure DerivesMembers (item : Item Ty) (fields : List (ItemField Ty))
    (declared : List (DeclaredField Ty)) : Prop where
  body : item.body = .named fields
  distinct : (fields.map ItemField.name).Nodup
  derived : ∃ derived, item.deriveStructure = .ok derived ∧ derived.declared = some declared

/-- What declaring comes to where all members are derived, also those of the structures that are
extended. -/
inductive DeclaresDerived : Except Fault (List Member) → Prop
  | item {item : Item Ty} {fields : List (ItemField Ty)} {declared : List (DeclaredField Ty)}
      (derives : DerivesMembers item fields declared) (owner : String) (offset : String → Nat)
      {known : String → Except Fault (List Member)}
      (extended : ∀ field ∈ fields, field.isSkipped = false → field.isExtension = true →
        DeclaresDerived (known (structureName field.type))) :
      DeclaresDerived (declareMembers owner offset known declared)

/-- The fields that are not skipped, in their order. -/
def keptFields (fields : List (ItemField Ty)) : List (ItemField Ty) :=
  fields.filter fun field => !field.isSkipped

namespace ItemField

/-- The names that are written for a field, extensions being taken apart. -/
def outputs (known : String → Except Fault (List Member)) (field : ItemField Ty) : List String :=
  if field.isExtension then
    match known (structureName field.type) with
    | .ok members => Member.outputsAll members
    | .error _ => []
  else [field.finalName]

/-- That a member is the one of a field: under the field's name, for the field itself, and with the
members of the structure that the field extends by. -/
def Declares (offset : String → Nat) (known : String → Except Fault (List Member))
    (field : ItemField Ty) (member : Member) : Prop :=
  member.head = ⟨field.finalName, ⟨offset field.name, field.name, field.type⟩,
    [plainName field.name]⟩ ∧
  if field.isExtension then ∃ members, known (structureName field.type) = .ok members ∧
    member = .extend member.head (structureName field.type) members
  else member = .field member.head field.type

end ItemField

variable {item : Item Ty} {fields : List (ItemField Ty)} {declared : List (DeclaredField Ty)}
  {offset : String → Nat} {known : String → Except Fault (List Member)} {owner : String}

section Structures

theorem DerivesMembers.kept (derives : DerivesMembers item fields declared) :
    declared = (keptFields fields).map ItemField.declaration := by
  obtain ⟨derived, accepted, own⟩ := derives.derived
  unfold Item.deriveStructure at accepted
  rw [derives.body] at accepted
  split_ifs at accepted
  split at accepted
  · cases accepted
  · split at accepted
    · cases accepted
    · rename_i declares
      cases accepted
      dsimp only at own
      split_ifs at own
      cases own
      exact declared_fields declares

/-- The line that declares a field. -/
def lineOf (offset : String → Nat) (known : String → Except Fault (List Member))
    (field : ItemField Ty) : MemberCall := field.declaration.call offset known

theorem line_extension {field : ItemField Ty} (extension : field.isExtension = true) :
    lineOf offset known field = .extend (field.declaration.head offset) (structureName field.type)
      (known (structureName field.type)) := if_pos extension

theorem line_plain {field : ItemField Ty} (plain : ¬ field.isExtension = true) :
    lineOf offset known field = .field (field.declaration.head offset) field.type := if_neg plain

theorem line_head (field : ItemField Ty) : (lineOf offset known field).head =
    ⟨field.finalName, ⟨offset field.name, field.name, field.type⟩, [plainName field.name]⟩ := by
  by_cases extension : field.isExtension = true
  · rw [line_extension extension]
    rfl
  · rw [line_plain extension]
    rfl

theorem line_outputs (field : ItemField Ty) :
    (lineOf offset known field).outputs = field.outputs known := by
  unfold ItemField.outputs
  by_cases extension : field.isExtension = true
  · rw [line_extension extension, if_pos extension]
    cases known (structureName field.type) <;> rfl
  · rw [line_plain extension, if_neg extension]
    rfl

theorem line_extends {field : ItemField Ty} {head : MemberHead} {base : String}
    {outcome : Except Fault (List Member)}
    (line : lineOf offset known field = .extend head base outcome) :
    field.isExtension = true ∧ outcome = known (structureName field.type) := by
  by_cases extension : field.isExtension = true
  · rw [line_extension extension] at line
    cases line
    exact ⟨extension, rfl⟩
  · rw [line_plain extension] at line
    cases line

theorem line_resolves {field : ItemField Ty} {member : Member}
    (resolved : (lineOf offset known field).resolve = .ok member) :
    field.Declares offset known member := by
  have head := MemberCall.resolve_head resolved
  rw [line_head] at head
  refine ⟨head, ?_⟩
  by_cases extension : field.isExtension = true
  · rw [line_extension extension] at resolved
    rw [if_pos extension]
    cases outcome : known (structureName field.type) with
    | error fault =>
        rw [outcome] at resolved
        cases resolved
    | ok members =>
        rw [outcome] at resolved
        cases resolved
        exact ⟨members, rfl, rfl⟩
  · rw [line_plain extension] at resolved
    rw [if_neg extension]
    cases resolved
    rfl

/-- The declaration of derived members has a line for each field that is kept. -/
theorem declare_lines (derives : DerivesMembers item fields declared) :
    declareMembers owner offset known declared =
      Declaration.build owner ((keptFields fields).map (lineOf offset known)) := by
  rw [declareMembers, derives.kept, List.map_map]
  rfl

/-- Fields are told apart by their names, also where they share an offset. -/
theorem line_fields_distinct (derives : DerivesMembers item fields declared)
    (offset : String → Nat) (known : String → Except Fault (List Member)) :
    (((keptFields fields).map (lineOf offset known)).map fun line => line.head.id).Nodup := by
  have names : ((keptFields fields).map ItemField.name).Nodup :=
    derives.distinct.sublist (List.filter_sublist.map _)
  refine List.Nodup.of_map FieldId.field ?_
  simpa only [List.map_map, Function.comp_def, line_head] using names

theorem unambiguous_iff (derives : DerivesMembers item fields declared) :
    Declaration.Unambiguous ((keptFields fields).map (lineOf offset known)) ↔
      ((keptFields fields).map ItemField.finalName).Nodup ∧
      (∀ field ∈ keptFields fields, field.isExtension = true →
        ∃ members, known (structureName field.type) = .ok members) ∧
      ((keptFields fields).flatMap (ItemField.outputs known)).Nodup := by
  have names : (((keptFields fields).map (lineOf offset known)).map MemberCall.head).map
      MemberHead.name = (keptFields fields).map ItemField.finalName := by
    simp only [List.map_map, Function.comp_def, line_head]
  have outputs : ((keptFields fields).map (lineOf offset known)).flatMap MemberCall.outputs =
      (keptFields fields).flatMap (ItemField.outputs known) := by
    simp only [List.flatMap_map, line_outputs]
  constructor
  · rintro ⟨⟨distinct, -⟩, extended, written⟩
    refine ⟨names ▸ distinct, fun field inside extension => ?_, outputs ▸ written⟩
    have line := List.mem_map_of_mem (f := lineOf offset known) inside
    rw [line_extension extension] at line
    exact extended _ _ _ line
  · rintro ⟨distinct, extended, written⟩
    refine ⟨⟨names ▸ distinct, ?_⟩, fun head base outcome inside => ?_, outputs ▸ written⟩
    · have fieldsDistinct := line_fields_distinct derives offset known
      rwa [List.map_map]
    · obtain ⟨field, fieldInside, line⟩ := List.mem_map.mp inside
      obtain ⟨extension, rfl⟩ := line_extends line
      exact extended field fieldInside extension

/-- No field is repeated: such a fault is that of a structure that is extended. -/
theorem repeated_field_passed (derives : DerivesMembers item fields declared) {fault : Fault}
    {first second name : String} (repeated : fault.cause = .fieldRepeated first second name)
    (failed : declareMembers owner offset known declared = .error fault) :
    ∃ field ∈ keptFields fields, field.isExtension = true ∧
      known (structureName field.type) = .error fault := by
  rw [declare_lines derives] at failed
  have fieldsDistinct := line_fields_distinct derives offset known
  cases Declaration.build_rejected failed with
  | repeated split before repeats =>
      cases repeats with
      | name known => cases repeated
      | @field other fresh known same =>
          rw [split, List.map_append, List.map_cons, List.nodup_append] at fieldsDistinct
          obtain ⟨line, inside, rfl⟩ := List.mem_map.mp known
          exact absurd same (fieldsDistinct.2.2 _ (List.mem_map_of_mem inside) _ List.mem_cons_self)
  | @clash earlier later call _ members split before clashes =>
      cases clashes with
      | @extension head base _ failing =>
          have inside : call ∈ (keptFields fields).map (lineOf offset known) := by simp [split]
          obtain ⟨field, fieldInside, line⟩ := List.mem_map.mp inside
          obtain ⟨extension, outcome⟩ := line_extends (line.trans failing)
          exact ⟨field, fieldInside, extension, outcome.symm⟩
      | output _ _ _ => cases repeated

/-- The induction is on how far extensions reach. -/
theorem derived_repeats_no_field {outcome : Except Fault (List Member)}
    (derived : DeclaresDerived outcome) {fault : Fault} (failed : outcome = .error fault)
    (first second name : String) : fault.cause ≠ .fieldRepeated first second name := by
  induction derived with
  | item derives owner offset extended induction =>
      intro repeated
      obtain ⟨field, inside, extension, passed⟩ := repeated_field_passed derives repeated failed
      rw [keptFields, List.mem_filter, Bool.not_eq_true'] at inside
      exact induction field inside.1 inside.2 extension passed repeated

theorem members_declared (derives : DerivesMembers item fields declared) {members : List Member}
    (built : declareMembers owner offset known declared = .ok members) :
    List.Forall₂ (ItemField.Declares offset known) (keptFields fields) members := by
  rw [declare_lines derives] at built
  have resolved := Declaration.build_members built
  rw [List.map_map] at resolved
  have pairs : List.Forall₂ (fun field member => (lineOf offset known field).resolve = .ok member)
      (keptFields fields) members := by
    rw [← List.forall₂_eq_eq_eq, List.forall₂_map_left_iff, List.forall₂_map_right_iff] at resolved
    exact resolved
  exact pairs.imp fun _ _ resolved => line_resolves resolved

end Structures

section Enumerations

theorem enumerator_names (position : Nat) (enumerators : List DeclaredEnumerator) :
    (enumeratorEntries position enumerators).map Prod.fst =
      enumerators.map DeclaredEnumerator.name := by
  induction enumerators generalizing position with
  | nil => rfl
  | cons enumerator rest induction =>
      rw [enumeratorEntries, List.map_cons, List.map_cons, induction]

theorem enumerator_values (position : Nat) (enumerators : List DeclaredEnumerator) :
    (enumeratorEntries position enumerators).map Prod.snd =
      (List.range' position enumerators.length).map Int.ofNat := by
  induction enumerators generalizing position with
  | nil => rfl
  | cons enumerator rest induction =>
      rw [enumeratorEntries, List.map_cons, induction]
      rfl

theorem enumerator_values_distinct (position : Nat) (enumerators : List DeclaredEnumerator) :
    ((enumeratorEntries position enumerators).map Prod.snd).Nodup := by
  rw [enumerator_values]
  exact List.Nodup.map (fun _ _ => Int.ofNat.inj) (List.nodup_range' 1)

theorem mem_enumerator_entries {enumerators : List DeclaredEnumerator} {start position : Nat}
    {enumerator : DeclaredEnumerator} (known : enumerators[position]? = some enumerator) :
    (enumerator.name, ((start + position : Nat) : Int)) ∈ enumeratorEntries start enumerators := by
  induction enumerators generalizing start position with
  | nil => cases known
  | cons other rest induction =>
      rw [enumeratorEntries, List.mem_cons]
      cases position with
      | zero =>
          cases known
          exact .inl rfl
      | succ position =>
          have further := @induction (start + 1) position known
          rw [Nat.add_right_comm] at further
          exact .inr further

theorem derived_enumerators {item : Item Ty} {variants : List ItemVariant}
    {derived : DerivedEnumeration} (body : item.body = .variants variants)
    (accepted : item.deriveEnumeration = .ok derived) :
    variants ≠ [] ∧
      derived.enumerators = variants.map fun variant => ⟨variant.finalName, variant.name⟩ := by
  unfold Item.deriveEnumeration at accepted
  rw [body] at accepted
  dsimp only at accepted
  split_ifs at accepted with generic empty
  cases declares : declareVariants variants with
  | error fault =>
      rw [declares] at accepted
      cases accepted
  | ok enumerators =>
      rw [declares] at accepted
      cases accepted
      exact ⟨by simpa using empty, declared_variants declares⟩

/-- The table of a derived enumeration maps every variant, unless a name is repeated. -/
theorem derived_table {item : Item Ty} {variants : List ItemVariant} {derived : DerivedEnumeration}
    (body : item.body = .variants variants) (accepted : item.deriveEnumeration = .ok derived)
    (owner : String) :
    ((variants.map ItemVariant.finalName).Nodup ∧ ∃ table, derived.table owner = .ok table ∧
      table.names = variants.map ItemVariant.finalName ∧
      ∀ (position : Nat) variant, variants[position]? = some variant →
        table.nameOf? position = some variant.finalName ∧
          table.valueOf? variant.finalName = some position) ∨
    (¬ (variants.map ItemVariant.finalName).Nodup ∧ ∃ name ∈ variants.map ItemVariant.finalName,
      derived.table owner = .error (.of (.enumeratorNameRepeated name owner))) := by
  obtain ⟨some, enumerators⟩ := derived_enumerators body accepted
  have names : (enumeratorEntries 0 derived.enumerators).map Prod.fst =
      variants.map ItemVariant.finalName := by
    rw [enumerator_names, enumerators, List.map_map]
    rfl
  have values := enumerator_values_distinct 0 derived.enumerators
  have entries : enumeratorEntries 0 derived.enumerators ≠ [] := by
    intro none
    rw [none, List.map_nil, eq_comm, List.map_eq_nil_iff] at names
    exact some names
  have cases := EnumTable.declare_cases owner entries values
  rw [names] at cases
  refine cases.imp_left fun ⟨distinct, declared⟩ => ⟨distinct, _, declared, names, ?_⟩
  intro position variant known
  have inside : (variant.finalName, (position : Int)) ∈ enumeratorEntries 0 derived.enumerators := by
    have found : derived.enumerators[position]? = Option.some ⟨variant.finalName, variant.name⟩ := by
      rw [enumerators, List.getElem?_map, known]
      rfl
    simpa using @mem_enumerator_entries _ 0 _ _ found
  rw [← names] at distinct
  have byValue := EnumTable.find_keyed Prod.snd values inside
  have byName := EnumTable.find_keyed Prod.fst distinct inside
  dsimp only at byValue byName
  rw [EnumTable.nameOf?, EnumTable.valueOf?, byValue, byName]
  exact ⟨rfl, rfl⟩

end Enumerations

/-- From items to declarations. No field is repeated by the declaration of derived members: where it
fails so, an extended structure has failed so whose members are declared by hand. It is accepted
exactly if the names of the fields that are not skipped are distinct, all that they extend by has been
accepted, and no name is written twice; there is a member for each of these fields then, in their
order. The table of an enumeration is never empty and repeats no value: it is declared exactly if the
names of the variants are distinct, and maps every variant then. -/
theorem derived_items_declare_what_they_hold :
    (∀ {item : Item Ty} {fields : List (ItemField Ty)} {declared : List (DeclaredField Ty)},
      DerivesMembers item fields declared → ∀ owner offset known,
        (∀ fault first second name, declareMembers owner offset known declared = .error fault →
          fault.cause = .fieldRepeated first second name →
            ∃ field ∈ keptFields fields, field.isExtension = true ∧
              known (structureName field.type) = .error fault) ∧
        ((∃ members, declareMembers owner offset known declared = .ok members) ↔
          ((keptFields fields).map ItemField.finalName).Nodup ∧
          (∀ field ∈ keptFields fields, field.isExtension = true →
            ∃ members, known (structureName field.type) = .ok members) ∧
          ((keptFields fields).flatMap (ItemField.outputs known)).Nodup) ∧
        ∀ members, declareMembers owner offset known declared = .ok members →
          List.Forall₂ (ItemField.Declares offset known) (keptFields fields) members) ∧
    (∀ outcome fault first second name, DeclaresDerived outcome → outcome = .error fault →
      fault.cause ≠ .fieldRepeated first second name) ∧
    ∀ {item : Item Ty} {variants : List ItemVariant} {derived : DerivedEnumeration},
      item.body = .variants variants → item.deriveEnumeration = .ok derived → ∀ owner,
        (∀ fault, derived.table owner = .error fault →
          ∃ name ∈ variants.map ItemVariant.finalName,
            fault = .of (.enumeratorNameRepeated name owner)) ∧
        ((∃ table, derived.table owner = .ok table) ↔
          (variants.map ItemVariant.finalName).Nodup) ∧
        ∀ table, derived.table owner = .ok table →
          table.names = variants.map ItemVariant.finalName ∧
          ∀ (position : Nat) variant, variants[position]? = some variant →
            table.nameOf? position = some variant.finalName ∧
              table.valueOf? variant.finalName = some position := by
  refine ⟨fun derives owner offset known => ⟨?_, ?_, fun members => members_declared derives⟩, ?_, ?_⟩
  · exact fun fault first second name failed repeated => repeated_field_passed derives repeated failed
  · rw [declare_lines derives, Declaration.built_iff_unambiguous, unambiguous_iff derives]
  · exact fun outcome fault first second name derived failed =>
      derived_repeats_no_field derived failed first second name
  · intro item variants derived body accepted owner
    rcases derived_table body accepted owner with
      ⟨distinct, table, declared, mapped⟩ | ⟨repeated, name, inside, refused⟩
    · rw [declared]
      refine ⟨nofun, ⟨fun _ => distinct, fun _ => ⟨table, rfl⟩⟩, fun other same => ?_⟩
      cases same
      exact mapped
    · rw [refused]
      refine ⟨fun fault same => ⟨name, inside, (Except.error.inj same).symm⟩, ⟨?_, ?_⟩, nofun⟩
      · rintro ⟨table, declared⟩
        cases declared
      · exact fun distinct => absurd distinct repeated

end Derivation

namespace Parcel

open Marshal.Derivation

def assemble (key : String) (value : Option Literal) : Attribute :=
  ⟨"assemble", .options [⟨key, value⟩]⟩

def label : Item Ty := ⟨"Label", [], [], .named [⟨"text", .string, []⟩]⟩

def labelDeclared : Except Fault (List Member) :=
  declareMembers "Label" (fun _ => 0) (fun _ => .ok []) [⟨"text", "text", .string, false⟩]

/-- Two of the fields are of a type that takes no room. -/
def fields : List (ItemField Ty) :=
  [⟨"label", .record "Label", [assemble "extend" none]⟩,
    ⟨"r#type", .int .u8, [⟨"doc", .assigned⟩]⟩,
    ⟨"cache", .string, [assemble "skip" none]⟩,
    ⟨"front", .record "Seal", [assemble "rename" (some (.text "seal"))]⟩,
    ⟨"back", .record "Seal", []⟩]

def item : Item Ty := ⟨"Parcel", [], [], .named fields⟩

def declared : List (DeclaredField Ty) :=
  [⟨"label", "label", .record "Label", true⟩, ⟨"type", "r#type", .int .u8, false⟩,
    ⟨"seal", "front", .record "Seal", false⟩, ⟨"back", "back", .record "Seal", false⟩]

def variants : List ItemVariant :=
  [⟨"Small", [], false⟩, ⟨"Large", [assemble "rename" (some (.text "max"))], false⟩]

theorem label_derives : DerivesMembers label [⟨"text", .string, []⟩]
    [⟨"text", "text", .string, false⟩] where
  body := rfl
  distinct := by simp
  derived := ⟨⟨"Label", [], some [⟨"text", "text", .string, false⟩]⟩, by decide +kernel, rfl⟩

theorem derives : DerivesMembers item fields declared where
  body := rfl
  distinct := by decide
  derived := ⟨⟨"Parcel", [], some declared⟩, by decide +kernel, rfl⟩

end Parcel

open Parcel in
/-- A parcel that is extended by its label, and the sizes that it can have. -/
theorem Derivation.derived_items_declare_what_they_hold_parcel :
    let known := fun _ : String => labelDeclared
    let outcome := declareMembers "Parcel" (fun _ => 0) known declared
    DerivesMembers item fields declared ∧ DeclaresDerived outcome ∧
      (∃ members, outcome = .ok members ∧
        List.Forall₂ (ItemField.Declares (fun _ => 0) known) (keptFields fields) members) ∧
      (∀ fault, outcome = .error fault → fault.cause ≠ .fieldRepeated "seal" "back" "Parcel") ∧
      ∃ derived table, (Item.mk "Size" [] [] (.variants variants) : Item Ty).deriveEnumeration =
          .ok derived ∧ derived.table "Size" = .ok table ∧ table.names = ["Small", "max"] ∧
        table.nameOf? 1 = some "max" ∧ table.valueOf? "max" = some 1 := by
  intro known outcome
  obtain ⟨structures, never, enumerations⟩ := derived_items_declare_what_they_hold
  obtain ⟨-, accepted, members⟩ := structures derives "Parcel" (fun _ => 0) known
  have labelDerived : DeclaresDerived labelDeclared := .item label_derives _ _ (by
    intro field inside _ extension
    obtain rfl := List.mem_singleton.mp inside
    cases extension)
  have derived : DeclaresDerived outcome := .item derives _ _ fun _ _ _ _ => labelDerived
  obtain ⟨found, declaredAll⟩ := accepted.mpr ⟨by decide +kernel, fun _ _ _ => ⟨_, rfl⟩,
    by decide +kernel⟩
  have sizes : (Item.mk "Size" [] [] (.variants variants) : Item Ty).deriveEnumeration =
      .ok ⟨"Size", [⟨"Small", "Small"⟩, ⟨"max", "Large"⟩]⟩ := by decide +kernel
  obtain ⟨-, mapped, table⟩ := enumerations rfl sizes "Size"
  obtain ⟨entries, made⟩ := mapped.mpr (by decide +kernel)
  obtain ⟨names, positions⟩ := table entries made
  obtain ⟨named, valued⟩ := positions 1 ⟨"Large", [assemble "rename" (some (.text "max"))], false⟩ rfl
  have name : ItemVariant.finalName ⟨"Large", [assemble "rename" (some (.text "max"))], false⟩ =
      "max" := by decide +kernel
  rw [name] at named valued
  exact ⟨derives, derived, ⟨found, declaredAll, members found declaredAll⟩,
    fun fault failed => never outcome fault _ _ _ derived failed,
    ⟨_, entries, sizes, made, names.trans (by decide +kernel), named, valued⟩⟩

/-- A label that is declared by hand, its one field twice. -/
def Parcel.labelTwice : Except Fault (List Member) :=
  let text : FieldId := ⟨0, "text", .string⟩
  Declaration.build "Label" [.field ⟨"text", text, ["text"]⟩ .string,
    .field ⟨"words", text, ["text"]⟩ .string]

open Parcel in
/-- Where the label is declared by hand and repeats its field, the parcel that is extended by it fails
with just that, though its own members are derived. -/
theorem Derivation.repeated_field_passed_by_parcel :
    let known := fun _ : String => labelTwice
    let fault : Fault := .of (.fieldRepeated "text" "words" "Label")
    DerivesMembers item fields declared ∧ labelTwice = .error fault ∧
      declareMembers "Parcel" (fun _ => 0) known declared = .error fault ∧
      ¬ ∀ {item : Item Ty} {fields : List (ItemField Ty)} {declared : List (DeclaredField Ty)},
        DerivesMembers item fields declared → ∀ owner offset known fault first second name,
          declareMembers owner offset known declared = .error fault →
            fault.cause ≠ .fieldRepeated first second name := by
  intro known fault
  have extended : labelTwice = .error fault := by rfl
  have failed : declareMembers "Parcel" (fun _ => 0) known declared = .error fault := by
    rfl
  exact ⟨derives, extended, failed, fun never =>
    never derives "Parcel" (fun _ => 0) known fault "text" "words" "Label" failed rfl⟩

end Marshal
