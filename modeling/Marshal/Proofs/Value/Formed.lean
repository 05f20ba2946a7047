import Marshal.Proofs.Structure.Inlining
import Marshal.Proofs.Value.Portions

/-!
# Values that can be read into

Reading in place wants the records and tuples of a type to be there, with all their fields and slots.
Every value of the type has them, and they are still there when what is replaced inside of them has
been replaced.
-/

namespace Marshal.Schema

variable {schema : Schema} {type middle target : Ty} {trail rest : Trail} {value part : Val}

/-- That a value has the shape of a type, and a part wherever the type leads to. -/
structure Formed (schema : Schema) (type : Ty) (value : Val) : Prop where
  shaped : schema.Shaped type value
  entire : ∀ trail target, schema.Reaches type trail target → ∃ part, value.at? trail = some part

theorem reaches_append (reaches : schema.Reaches type trail middle)
    (further : schema.Reaches middle rest target) : schema.Reaches type (trail ++ rest) target := by
  induction trail generalizing type with
  | nil =>
      have same : type.unboxed = middle.unboxed := reaches
      rwa [List.nil_append, ← reaches_unboxed, same, reaches_unboxed]
  | cons segment trail induction =>
      cases segment with
      | field name =>
          obtain ⟨record, inner, unboxed, known, more⟩ := reaches
          exact ⟨record, inner, unboxed, known, induction more⟩
      | index position =>
          obtain ⟨types, inner, unboxed, known, more⟩ := reaches
          exact ⟨types, inner, unboxed, known, induction more⟩

theorem typed_entire (reaches : schema.Reaches type trail target)
    (typed : schema.HasType type value) : ∃ part, value.at? trail = some part := by
  induction trail generalizing type value with
  | nil => exact ⟨value, rfl⟩
  | cons segment trail induction =>
      rw [← has_type_unboxed] at typed
      cases segment with
      | field name =>
          obtain ⟨record, inner, unboxed, known, further⟩ := reaches
          rw [unboxed] at typed
          obtain ⟨fields, rfl⟩ := typed_record typed
          obtain ⟨middle, found, middleTyped⟩ := typed_field typed known
          obtain ⟨part, reached⟩ := induction further middleTyped
          exact ⟨part, by rw [Val.at?, Val.part?, found]; exact reached⟩
      | index position =>
          obtain ⟨types, inner, unboxed, known, further⟩ := reaches
          rw [unboxed] at typed
          cases typed with
          | @tuple _ slots slotsTyped =>
              obtain ⟨inside, rfl⟩ := List.getElem?_eq_some_iff.mp known
              have within : position < slots.length := slotsTyped.length_eq ▸ inside
              obtain ⟨part, reached⟩ := induction further (slotsTyped.get inside within)
              refine ⟨part, ?_⟩
              rw [Val.at?, Val.part?, List.getElem?_eq_getElem within]
              exact reached

theorem typed_formed (typed : schema.HasType type value) : schema.Formed type value where
  shaped := has_type_shaped typed
  entire _ _ reaches := typed_entire reaches typed

theorem default_formed (sound : schema.Sound) (type : Ty) :
    schema.Formed type (schema.default type) := typed_formed (default_typed sound type)

theorem shaped_at (reaches : schema.Reaches type trail target) (shaped : schema.Shaped type value)
    (found : value.at? trail = some part) : schema.Shaped target part := by
  induction trail generalizing type value with
  | nil =>
      cases found
      have same : type.unboxed = target.unboxed := reaches
      rwa [← shaped_unboxed, ← same, shaped_unboxed]
  | cons segment trail induction =>
      obtain ⟨middle, known, further⟩ := Option.bind_eq_some_iff.mp found
      rw [← shaped_unboxed] at shaped
      cases segment with
      | field name =>
          obtain ⟨record, inner, unboxed, member, more⟩ := reaches
          rw [unboxed] at shaped
          cases shaped with
          | replaced replaced => cases replaced
          | record shaped => exact induction more (shaped name inner member middle known) further
      | index position =>
          obtain ⟨types, inner, unboxed, member, more⟩ := reaches
          rw [unboxed] at shaped
          cases shaped with
          | replaced replaced => cases replaced
          | tuple size shaped =>
              exact induction more (shaped position inner middle member known) further

theorem Formed.inside (formed : schema.Formed type value) (reaches : schema.Reaches type trail target)
    (found : value.at? trail = some part) : schema.Formed target part where
  shaped := shaped_at reaches formed.shaped found
  entire rest inner further := by
    obtain ⟨last, reached⟩ := formed.entire _ inner (reaches_append reaches further)
    rw [Val.at_append, found] at reached
    exact ⟨last, reached⟩

/-- What is read into at a trail is there, and nothing else is put in its place. -/
theorem Formed.filled (formed : schema.Formed type value)
    (reaches : schema.Reaches type trail target) (fallback : Val) :
    schema.Formed target ((value.at? trail).getD fallback) := by
  obtain ⟨part, found⟩ := formed.entire trail target reaches
  rw [found]
  exact formed.inside reaches found

theorem Formed.tuple {types : List Ty} (formed : schema.Formed (.tuple types) value) :
    ∃ slots, value = .tuple slots ∧ slots.length = types.length := by
  cases formed.shaped with
  | replaced replaced => cases replaced
  | tuple size shaped => exact ⟨_, rfl, size⟩

theorem leaf_reaches (sound : schema.Sound) {name : String} {leaf : Leaf}
    (inside : leaf ∈ schema.leaves name) :
    schema.Reaches (.record name) (leaf.path.map Segment.field) leaf.type := by
  have own : schema.Reaches leaf.type [] leaf.type := rfl
  have reaches := leads_reaches (leaf_leads sound inside).2 own
  rwa [List.append_nil] at reaches

theorem slot_reaches {types : List Ty} {position : Nat} (known : types[position]? = some target) :
    schema.Reaches (.tuple types) [.index position] target := ⟨types, target, rfl, known, rfl⟩

theorem Formed.whole {name : String} (formed : schema.Formed (.record name) value) :
    schema.Whole name value := by
  intro path base leads
  have own : schema.Reaches (.record base) [] (.record base) := rfl
  have reaches := leads_reaches leads own
  rw [List.append_nil] at reaches
  obtain ⟨part, found⟩ := formed.entire _ _ reaches
  rw [Val.at_fields] at found
  exact ⟨part, found⟩

/-- Nothing is read in place behind what is replaced. -/
theorem replaces_ends (distinct : schema.FieldsDistinct) (replaces : schema.Replaces type trail)
    {segment : Segment} (beyond : schema.Reaches type (trail ++ segment :: rest) target) : False := by
  obtain ⟨last, reaches, replaced⟩ := replaces
  induction trail generalizing type with
  | nil => exact not_inside_replaced reaches replaced beyond
  | cons first trail induction =>
      cases first with
      | field name =>
          obtain ⟨record, inner, unboxed, known, further⟩ := reaches
          obtain ⟨other, second, again, knownToo, beyond⟩ := beyond
          rw [unboxed] at again
          cases again
          exact induction (field_type distinct known knownToo ▸ beyond) further
      | index position =>
          obtain ⟨types, inner, unboxed, known, further⟩ := reaches
          obtain ⟨others, second, again, knownToo, beyond⟩ := beyond
          rw [unboxed] at again
          cases again
          rw [known] at knownToo
          cases knownToo
          exact induction beyond further

theorem Formed.overwritten (distinct : schema.FieldsDistinct) (formed : schema.Formed type value)
    (replaces : schema.Replaces type trail) (part : Val) :
    schema.Formed type (value.overwrite trail part) where
  shaped := by
    obtain ⟨target, reaches, replaced⟩ := replaces
    exact shaped_overwrite distinct reaches formed.shaped (.replaced replaced)
  entire other target reaches := by
    obtain ⟨old, found⟩ := formed.entire other target reaches
    rcases Trail.apart_cases trail other with apart | ⟨rest, rfl⟩ | ⟨rest, rfl⟩
    · exact ⟨old, by rw [Val.at_overwrite_apart apart, found]⟩
    · cases rest with
      | nil =>
          rw [List.append_nil] at found ⊢
          exact ⟨part, Val.at_overwrite_own found part⟩
      | cons segment rest => exact (replaces_ends distinct replaces reaches).elim
    · exact ⟨_, Val.at_overwrite_above found rest part⟩

theorem formed_unboxed (type : Ty) (value : Val) :
    schema.Formed type.unboxed value ↔ schema.Formed type value := by
  constructor
  · rintro ⟨shaped, entire⟩
    exact ⟨(shaped_unboxed type value).mp shaped, fun trail target reaches =>
      entire trail target ((reaches_unboxed type trail target).mpr reaches)⟩
  · rintro ⟨shaped, entire⟩
    exact ⟨(shaped_unboxed type value).mpr shaped, fun trail target reaches =>
      entire trail target ((reaches_unboxed type trail target).mp reaches)⟩

theorem formed_boxed {inner : Ty} : schema.Formed (.boxed inner) value ↔ schema.Formed inner value := by
  rw [← formed_unboxed, Ty.unboxed, formed_unboxed]

end Marshal.Schema
