import Mathlib.Data.List.Forall2
import Marshal.Write.Value

/-!
# Writing into two sinks

A writer knows its sink by the sink's operations only, and goes on or stops by what they answer. So
whatever relates the operations of two sinks, and is kept by how steps are put together, relates all
that is written into the one to what is written into the other.
-/

namespace Marshal

variable {LeftStructs LeftArrays RightStructs RightArrays : Type}

/-- That writing at one place and at another are related, if what is written into a container that is
opened at the one is related to what is written into the container that is opened at the other. -/
structure Outlet.Relates {LeftState RightState : Type}
    (structs : Step LeftStructs → Step RightStructs → Prop)
    (arrays : Step LeftArrays → Step RightArrays → Prop)
    (place : Step LeftState → Step RightState → Prop)
    (left : Outlet LeftStructs LeftArrays LeftState)
    (right : Outlet RightStructs RightArrays RightState) : Prop where
  put : ∀ scalar, place (left.put scalar) (right.put scalar)
  leaveEmpty : place left.leaveEmpty right.leaveEmpty
  fail : ∀ fault, place (Step.fail fault) (Step.fail fault)
  withStruct : ∀ {first second}, structs first second →
    place (left.withStruct first) (right.withStruct second)
  withArray : ∀ {first second}, arrays first second →
    place (left.withArray first) (right.withArray second)

/-- Relations between the steps of two sinks: between what fills a struct, what fills an array, what is
written under a name and what is written as the next element. -/
structure Pairing (left : Sink LeftStructs LeftArrays) (right : Sink RightStructs RightArrays) where
  structs : Step LeftStructs → Step RightStructs → Prop
  arrays : Step LeftArrays → Step RightArrays → Prop
  field : String → Step LeftStructs → Step RightStructs → Prop
  next : Step LeftArrays → Step RightArrays → Prop
  fields_relate : ∀ name, (left.field name).Relates structs arrays (field name) (right.field name)
  next_relates : left.next.Relates structs arrays next right.next
  done : structs Step.done Step.done
  fail : ∀ fault, structs (Step.fail fault) (Step.fail fault)
  andThen : ∀ {first second further beyond}, structs first second → structs further beyond →
    structs (first.andThen further) (second.andThen beyond)
  inField : ∀ {name first second}, field name first second →
    structs (first.inField name) (second.inField name)
  allFrom : ∀ {firsts seconds}, List.Forall₂ next firsts seconds →
    arrays (Step.allFrom 0 firsts) (Step.allFrom 0 seconds)

namespace Pairing

variable {left : Sink LeftStructs LeftArrays} {right : Sink RightStructs RightArrays}

theorem all_related (pairing : Pairing left right) {firsts : List (Step LeftStructs)}
    {seconds : List (Step RightStructs)} (each : List.Forall₂ pairing.structs firsts seconds) :
    pairing.structs (Step.all firsts) (Step.all seconds) := by
  induction each with
  | nil => exact pairing.done
  | cons head tail induction => exact pairing.andThen head induction

section Level

variable (pairing : Pairing left right) (schema : Schema)
  {leftDeeper : String → Val → Step LeftStructs} {rightDeeper : String → Val → Step RightStructs}

mutual

theorem write_at_related
    (structures : ∀ name value, pairing.structs (leftDeeper name value) (rightDeeper name value))
    (type : Ty) (value : Val) {LeftState RightState : Type}
    {place : Step LeftState → Step RightState → Prop}
    {leftOutlet : Outlet LeftStructs LeftArrays LeftState}
    {rightOutlet : Outlet RightStructs RightArrays RightState}
    (related : leftOutlet.Relates pairing.structs pairing.arrays place rightOutlet) :
    place (schema.writeAt left leftDeeper type value leftOutlet)
      (schema.writeAt right rightDeeper type value rightOutlet) := by
  cases type with
  | primitive _ | string | textual _ =>
      rw [Schema.writeAt, Schema.writeAt]
      exact related.put _
  | enumeration name =>
      rw [Schema.writeAt, Schema.writeAt]
      cases (schema.enumerationInfo name).nameOf value.asCode with
      | ok text => exact related.put _
      | error fault => exact related.fail fault
  | record name =>
      rw [Schema.writeAt, Schema.writeAt]
      exact related.withStruct (structures name value)
  | option inner =>
      rw [Schema.writeAt, Schema.writeAt]
      cases value.content? with
      | none => exact related.leaveEmpty
      | some content => exact write_at_related structures inner content related
  | sequence kind item =>
      rw [Schema.writeAt, Schema.writeAt]
      apply related.withArray
      apply pairing.allFrom
      rw [List.forall₂_map_left_iff, List.forall₂_map_right_iff, List.forall₂_same]
      exact fun element _ => write_at_related structures item element pairing.next_relates
  | map kind keyType valueType =>
      rw [Schema.writeAt, Schema.writeAt]
      cases schema.keyNaming? keyType with
      | none =>
          apply related.withArray
          apply pairing.allFrom
          rw [List.forall₂_map_left_iff, List.forall₂_map_right_iff, List.forall₂_same]
          intro entry _
          have key := write_at_related structures keyType entry.1 (pairing.fields_relate keyField)
          have value := write_at_related structures valueType entry.2
            (pairing.fields_relate valueField)
          exact pairing.next_relates.withStruct
            (pairing.andThen (pairing.inField key) (pairing.inField value))
      | some naming =>
          apply related.withStruct
          apply pairing.all_related
          rw [List.forall₂_map_left_iff, List.forall₂_map_right_iff, List.forall₂_same]
          intro entry _
          cases naming.toName? entry.1.asText with
          | none => exact pairing.fail _
          | some name =>
              exact pairing.inField
                (write_at_related structures valueType entry.2 (pairing.fields_relate name))
  | tuple slots =>
      rw [Schema.writeAt, Schema.writeAt]
      exact related.withArray (pairing.allFrom (write_slots_related structures slots value.slots))
  | boxed inner =>
      rw [Schema.writeAt, Schema.writeAt]
      exact write_at_related structures inner value related

theorem write_slots_related
    (structures : ∀ name value, pairing.structs (leftDeeper name value) (rightDeeper name value))
    (slots : List Ty) (values : List Val) :
    List.Forall₂ pairing.next (schema.writeSlots left leftDeeper slots values)
      (schema.writeSlots right rightDeeper slots values) := by
  cases slots with
  | nil => simp [Schema.writeSlots]
  | cons slot slots =>
      cases values with
      | nil => simp [Schema.writeSlots]
      | cons value values =>
          rw [Schema.writeSlots, Schema.writeSlots]
          exact .cons (write_at_related structures slot value pairing.next_relates)
            (write_slots_related structures slots values)

end

mutual

theorem write_member_related
    (structures : ∀ name value, pairing.structs (leftDeeper name value) (rightDeeper name value))
    (owner : Val) (member : Member) :
    pairing.structs (schema.writeMember left leftDeeper owner member)
      (schema.writeMember right rightDeeper owner member) := by
  cases member with
  | field head type =>
      rw [Schema.writeMember, Schema.writeMember]
      exact pairing.inField
        (write_at_related pairing schema structures type _ (pairing.fields_relate head.name))
  | extend head base members =>
      rw [Schema.writeMember, Schema.writeMember]
      exact write_members_related structures _ members

theorem write_members_related
    (structures : ∀ name value, pairing.structs (leftDeeper name value) (rightDeeper name value))
    (owner : Val) (members : List Member) :
    pairing.structs (schema.writeMembers left leftDeeper owner members)
      (schema.writeMembers right rightDeeper owner members) := by
  cases members with
  | nil =>
      rw [Schema.writeMembers, Schema.writeMembers]
      exact pairing.done
  | cons member rest =>
      rw [Schema.writeMembers, Schema.writeMembers]
      exact pairing.andThen (write_member_related structures owner member)
        (write_members_related structures owner rest)

end

end Level

variable (pairing : Pairing left right) (schema : Schema)

theorem write_structure_related (levels : Nat) (name : String) (value : Val) :
    pairing.structs (schema.writeStructure left levels name value)
      (schema.writeStructure right levels name value) := by
  induction levels generalizing name value with
  | zero => exact pairing.done
  | succ levels induction =>
      rw [Schema.writeStructure, Schema.writeStructure]
      cases (schema.structureInfo name).members with
      | error fault => exact pairing.fail fault
      | ok members => exact pairing.write_members_related schema induction value members

/-- What a value leaves at two related places is related. -/
theorem write_related (type : Ty) (value : Val) {LeftState RightState : Type}
    {place : Step LeftState → Step RightState → Prop}
    {leftOutlet : Outlet LeftStructs LeftArrays LeftState}
    {rightOutlet : Outlet RightStructs RightArrays RightState}
    (related : leftOutlet.Relates pairing.structs pairing.arrays place rightOutlet) :
    place (schema.write left type value leftOutlet) (schema.write right type value rightOutlet) :=
  pairing.write_at_related schema (pairing.write_structure_related schema value.depth) type value
    related

theorem write_object_related (name : String) (value : Val) :
    pairing.structs (schema.writeObject left name value) (schema.writeObject right name value) :=
  pairing.write_structure_related schema value.depth name value

end Pairing

end Marshal
