import Marshal.Proofs.RoundTrip.Structures
import Marshal.Proofs.Writing.Steps

/-!
# What a successful writing says of the parts

A value is written by writing its parts, and the first part that cannot be written stops the whole.
So where a value has been written each of its parts can be, down to its enumerators, which then have
names.
-/

namespace Marshal

namespace Schema

variable {schema : Schema}

/-- That a value can be written at some place, structures being written deep enough. -/
def Writes (schema : Schema) (type : Ty) (value : Val) : Prop :=
  ∃ levels, value.depth ≤ levels ∧ ∃ (State : Type) (place : TreePlace State) (state : State),
    (schema.writeAt treeSink (schema.writeStructure treeSink levels) type value place.outlet
      state).1 = .ok ()

section Members

variable {deeper : String → Val → Step Fields}

mutual

theorem member_writes {owner : Val} (member : Member) {fields : Fields}
    (ok : (schema.writeMember treeSink deeper owner member fields).1 = .ok ()) :
    ∀ leaf ∈ member.leaves, ∀ inner, owner.get? leaf.path = some inner → ∃ fields,
      (schema.writeAt treeSink deeper leaf.type inner (Fields.place leaf.name).outlet fields).1 =
        .ok () := by
  cases member with
  | field head type =>
      intro leaf inside inner found
      obtain rfl := List.mem_singleton.mp inside
      rw [writeMember, member_value_found found] at ok
      exact ⟨fields, Step.map_fault_ok ok⟩
  | extend head base members =>
      intro leaf inside inner found
      obtain ⟨below, belowInside, rfl⟩ := List.mem_map.mp inside
      have found : owner.get? (head.path ++ below.path) = some inner := found
      rw [Val.get_append, Option.bind_eq_some_iff] at found
      obtain ⟨middle, reached, further⟩ := found
      rw [writeMember, member_value_found reached] at ok
      exact members_write members ok below belowInside inner further

theorem members_write {owner : Val} (members : List Member) {fields : Fields}
    (ok : (schema.writeMembers treeSink deeper owner members fields).1 = .ok ()) :
    ∀ leaf ∈ Member.leavesAll members, ∀ inner, owner.get? leaf.path = some inner → ∃ fields,
      (schema.writeAt treeSink deeper leaf.type inner (Fields.place leaf.name).outlet fields).1 =
        .ok () := by
  cases members with
  | nil => exact nofun
  | cons member rest =>
      rw [writeMembers] at ok
      obtain ⟨first, further⟩ := Step.and_then_ok ok
      rw [Member.leavesAll, List.forall_mem_append]
      exact ⟨member_writes member first, members_write rest further⟩

end

end Members

theorem slots_write {deeper : String → Val → Step Fields} {types : List Ty} {values : List Val}
    {slot : Ty × Val} (inside : slot ∈ types.zip values) :
    schema.writeAt treeSink deeper slot.1 slot.2 treeSink.next ∈
      schema.writeSlots treeSink deeper types values := by
  induction types generalizing values with
  | nil => cases inside
  | cons type types induction =>
      cases values with
      | nil => cases inside
      | cons value values =>
          rw [writeSlots]
          rcases List.mem_cons.mp inside with rfl | inside
          · exact List.mem_cons_self
          · exact List.mem_cons_of_mem _ (induction inside)

/-- A key that stands as a field name is a text, which can always be written. -/
theorem named_key_writes (keyType : Ty) {naming : KeyNaming}
    (named : schema.keyNaming? keyType = some naming) (key : Val) (slots : Slots) :
    (schema.writeAt treeSink (schema.writeStructure treeSink key.depth) keyType key
      Slots.place.outlet slots).1 = .ok () := by
  cases keyType with
  | string =>
      rw [writeAt]
      rfl
  | textual name =>
      rw [writeAt]
      rfl
  | boxed inner =>
      rw [keyNaming?] at named
      rw [writeAt]
      exact named_key_writes inner named key slots
  | _ => cases named

/-- The entries of a map have been written, each key and each value at a place of its own. -/
theorem entry_writes {kind : MapKind} {keyType valueType : Ty} {entries : List (Val × Val)}
    (writes : schema.Writes (.map kind keyType valueType) (.map entries)) {entry : Val × Val}
    (inside : entry ∈ entries) :
    schema.Writes keyType entry.1 ∧ schema.Writes valueType entry.2 := by
  obtain ⟨levels, enough, State, place, state, ok⟩ := writes
  have shallow := Val.depth_entry inside
  rw [Val.depth] at enough
  rw [writeAt] at ok
  cases named : schema.keyNaming? keyType with
  | some naming =>
      refine ⟨⟨entry.1.depth, le_rfl, Slots, Slots.place, .empty,
        named_key_writes keyType named entry.1 .empty⟩, ?_⟩
      rw [named] at ok
      dsimp only at ok
      rw [place.struct_eq] at ok
      obtain ⟨fields, done⟩ := Step.all_ok ok _ (List.mem_map_of_mem inside)
      cases toName : naming.toName? entry.1.asText with
      | none =>
          rw [toName] at done
          cases done
      | some name =>
          rw [toName] at done
          exact ⟨levels, by omega, Fields, Fields.place name, fields, Step.map_fault_ok done⟩
  | none =>
      rw [named] at ok
      dsimp only at ok
      rw [place.array_eq] at ok
      obtain ⟨slots, done⟩ := Step.all_from_ok ok _ (List.mem_map_of_mem inside)
      have opened := (congrArg Prod.fst (Slots.place.struct_eq _ slots)).symm.trans done
      obtain ⟨key, value⟩ := Step.and_then_ok opened
      exact ⟨⟨levels, by omega, Fields, Fields.place keyField, _, Step.map_fault_ok key⟩,
        levels, by omega, Fields, Fields.place valueField, _, Step.map_fault_ok value⟩

/-- A key that stands as a field name has been given one. -/
theorem entry_named {kind : MapKind} {keyType valueType : Ty} {entries : List (Val × Val)}
    (writes : schema.Writes (.map kind keyType valueType) (.map entries)) {naming : KeyNaming}
    (named : schema.keyNaming? keyType = some naming) {entry : Val × Val} (inside : entry ∈ entries) :
    ∃ name, naming.toName? entry.1.asText = some name := by
  obtain ⟨levels, -, State, place, state, ok⟩ := writes
  rw [writeAt, named] at ok
  dsimp only at ok
  rw [place.struct_eq] at ok
  obtain ⟨fields, done⟩ := Step.all_ok ok _ (List.mem_map_of_mem inside)
  cases toName : naming.toName? entry.1.asText with
  | none =>
      rw [toName] at done
      cases done
  | some name => exact ⟨name, rfl⟩

theorem writes_declared {name : String} {value : Val} (writes : schema.Writes (.record name) value) :
    ∃ members, (schema.structureInfo name).members = .ok members := by
  obtain ⟨levels, enough, State, place, state, ok⟩ := writes
  have positive := value.depth_positive
  obtain ⟨levels, rfl⟩ := Nat.exists_eq_add_one_of_ne_zero (by omega : levels ≠ 0)
  rw [writeAt, place.struct_eq, writeStructure] at ok
  cases declared : (schema.structureInfo name).members with
  | ok members => exact ⟨members, rfl⟩
  | error fault =>
      rw [declared] at ok
      cases ok

/-- Where a value has been written, the values inside of it can be. -/
theorem writes_inside (sound : schema.Sound) {whole part : Ty × Val}
    (inside : schema.Inside whole part) (writes : schema.Writes whole.1 whole.2) :
    schema.Writes part.1 part.2 := by
  cases inside with
  | key inside => exact (entry_writes writes inside).1
  | value inside => exact (entry_writes writes inside).2
  | @content inner value =>
      obtain ⟨levels, enough, State, place, state, ok⟩ := writes
      have shallow : value.depth ≤ levels := Nat.le_of_succ_le enough
      rw [writeAt] at ok
      exact ⟨levels, shallow, State, place, state, ok⟩
  | @item kind item items value inside =>
      obtain ⟨levels, enough, State, place, state, ok⟩ := writes
      have shallow : value.depth ≤ levels := (Val.depth_item inside).trans (Nat.le_of_succ_le enough)
      rw [writeAt, place.array_eq] at ok
      obtain ⟨slots, done⟩ := Step.all_from_ok ok _ (List.mem_map_of_mem inside)
      exact ⟨levels, shallow, Slots, Slots.place, slots, done⟩
  | @slot types values _ inside =>
      obtain ⟨levels, enough, State, place, state, ok⟩ := writes
      have shallow : part.2.depth ≤ levels :=
        (Val.depth_item (List.of_mem_zip inside).2).trans (Nat.le_of_succ_le enough)
      rw [writeAt, place.array_eq] at ok
      obtain ⟨slots, done⟩ := Step.all_from_ok ok _ (slots_write inside)
      exact ⟨levels, shallow, Slots, Slots.place, slots, done⟩
  | boxed =>
      obtain ⟨levels, enough, State, place, state, ok⟩ := writes
      rw [writeAt] at ok
      exact ⟨levels, enough, State, place, state, ok⟩
  | @member name value inner leaf inside found =>
      obtain ⟨levels, enough, State, place, state, ok⟩ := writes
      have positive := value.depth_positive
      have below := leaf_below sound inside found
      dsimp only at enough
      obtain ⟨levels, rfl⟩ := Nat.exists_eq_add_one_of_ne_zero (by omega : levels ≠ 0)
      have shallow : inner.depth ≤ levels := by omega
      rw [writeAt, place.struct_eq, writeStructure] at ok
      unfold leaves at inside
      cases declared : (schema.structureInfo name).members with
      | error fault =>
          rw [declared] at inside
          cases inside
      | ok members =>
          rw [declared] at ok inside
          obtain ⟨fields, done⟩ := members_write members ok leaf inside inner found
          exact ⟨levels, shallow, Fields, Fields.place leaf.name, fields, done⟩

/-- What has been written is mapped: each of its enumerators has a name. -/
theorem writes_mapped (sound : schema.Sound) {type : Ty} {value : Val}
    (writes : schema.Writes type value) : schema.Mapped type value := by
  intro name code inside
  have reached : ∀ part, Relation.ReflTransGen schema.Inside (type, value) part →
      schema.Writes part.1 part.2 := by
    intro part inside
    induction inside with
    | refl => exact writes
    | tail _ step induction => exact writes_inside sound step induction
  obtain ⟨levels, -, State, place, state, ok⟩ := reached _ inside
  rw [writeAt, Val.asCode] at ok
  cases named : (schema.enumerationInfo name).nameOf code with
  | ok text => exact ⟨text, rfl⟩
  | error fault =>
      rw [named] at ok
      cases ok

end Schema

end Marshal
