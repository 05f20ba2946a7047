import Marshal.Read.Value
import Mathlib.Tactic

/-!
# Identities stay out of documents

The identity of a field finds its member, and tells the members of a declaration apart. What is written
and what is read goes by the names of members and by the places of their values alone, so schemas that
differ in nothing but identities have the same documents.
-/

namespace Marshal

namespace Member

/-- What stands in the place of an identity that does not matter. -/
def noIdentity : FieldId := ⟨0, "", .string⟩

mutual

/-- A member but for the identities in it. -/
def unidentified : Member → Member
  | .field head type => .field { head with id := noIdentity } type
  | .extend head base members => .extend { head with id := noIdentity } base (allUnidentified members)

def allUnidentified : List Member → List Member
  | [] => []
  | member :: rest => unidentified member :: allUnidentified rest

end

end Member

def MemberCall.unidentified : MemberCall → MemberCall
  | .field head type => .field { head with id := Member.noIdentity } type
  | .extend head base declared =>
      .extend { head with id := Member.noIdentity } base (declared.map Member.allUnidentified)

def StructureInfo.unidentified (info : StructureInfo) : StructureInfo :=
  { info with identities := [], members := info.members.map Member.allUnidentified }

namespace Declaration

/-- The first name that repeats an earlier one decides the fault, where no field is repeated. -/
def firstNameRepeat (owner : String) (earlier : List String) : List String → Option Fault
  | [] => none
  | name :: rest =>
      if name ∈ earlier then some (.of (.memberNameRepeated name owner))
      else firstNameRepeat owner (earlier ++ [name]) rest

variable {owner : String}

theorem first_repeat_of_names {earlier : List MemberHead} {calls : List MemberCall}
    (distinct : ((earlier ++ calls.map MemberCall.head).map MemberHead.id).Nodup) :
    firstRepeat owner earlier calls = firstNameRepeat owner (earlier.map MemberHead.name)
      (calls.map fun call => call.head.name) := by
  induction calls generalizing earlier with
  | nil => rfl
  | cons call rest induction =>
      have fresh : (earlier.find? fun head => head.id = call.head.id) = none := by
        rw [List.map_append, List.nodup_append] at distinct
        rw [List.find?_eq_none]
        intro head inside
        simpa using distinct.2.2 _ (List.mem_map_of_mem inside) call.head.id (by simp)
      have known : (earlier.any fun head => head.name = call.head.name) = true ↔
          call.head.name ∈ earlier.map MemberHead.name := by simp
      rw [firstRepeat, List.map_cons, firstNameRepeat, fresh]
      simp only [known]
      rw [induction (by simpa using distinct), List.map_append]
      rfl

@[simp]
theorem name_unidentified (member : Member) : member.unidentified.name = member.name := by
  cases member <;> rfl

mutual

@[simp]
theorem outputs_unidentified (member : Member) : member.unidentified.outputs = member.outputs := by
  cases member with
  | field head type => rfl
  | extend head base members => exact all_outputs_unidentified members

theorem all_outputs_unidentified (members : List Member) :
    Member.outputsAll (Member.allUnidentified members) = Member.outputsAll members := by
  cases members with
  | nil => rfl
  | cons member rest =>
      rw [Member.allUnidentified, Member.outputsAll, Member.outputsAll, outputs_unidentified member,
        all_outputs_unidentified rest]

end

theorem resolve_unidentified (call : MemberCall) :
    call.unidentified.resolve = call.resolve.map Member.unidentified := by
  cases call with
  | field head type => rfl
  | extend head base declared => cases declared <;> rfl

theorem resolve_all_unidentified (written : List (String × String)) (calls : List MemberCall) :
    resolveAll owner written (calls.map MemberCall.unidentified) =
      (resolveAll owner written calls).map Member.allUnidentified := by
  induction calls generalizing written with
  | nil => rfl
  | cons call rest induction =>
      rw [List.map_cons, resolveAll, resolveAll, resolve_unidentified]
      cases call.resolve with
      | error fault => rfl
      | ok member =>
          dsimp only [Except.map]
          rw [name_unidentified, outputs_unidentified]
          cases claimOutputs owner member.name written member.outputs with
          | error fault => rfl
          | ok claimed =>
              dsimp only
              rw [induction claimed]
              cases resolveAll owner claimed rest <;> rfl

/-- Lines that differ in nothing but identities declare members that differ in nothing else, as long as
no field is repeated. -/
theorem build_unidentified {calls others : List MemberCall}
    (same : calls.map MemberCall.unidentified = others.map MemberCall.unidentified)
    (distinct : (calls.map fun call => call.head.id).Nodup)
    (othersDistinct : (others.map fun call => call.head.id).Nodup) :
    (build owner calls).map Member.allUnidentified =
      (build owner others).map Member.allUnidentified := by
  have named (calls : List MemberCall) : (calls.map fun call => call.head.name) =
      (calls.map MemberCall.unidentified).map fun call => call.head.name := by
    rw [List.map_map]
    exact List.map_congr_left fun call _ => by cases call <;> rfl
  unfold build
  rw [first_repeat_of_names (by simpa [Function.comp_def] using distinct),
    first_repeat_of_names (by simpa [Function.comp_def] using othersDistinct), named calls,
    named others, same]
  cases firstNameRepeat owner _ _ with
  | some fault => rfl
  | none => rw [← resolve_all_unidentified, ← resolve_all_unidentified, same]

end Declaration

namespace Schema

/-- A schema but for the identities in it. -/
def unidentified (schema : Schema) : Schema :=
  { schema with structures := schema.structures.map StructureInfo.unidentified }

variable {schema : Schema}

@[simp]
theorem enumeration_info_unidentified (name : String) :
    schema.unidentified.enumerationInfo name = schema.enumerationInfo name := rfl

@[simp]
theorem structure_info_unidentified (name : String) :
    schema.unidentified.structureInfo name = (schema.structureInfo name).unidentified := by
  unfold structureInfo unidentified
  rw [List.find?_map]
  have same : (fun info : StructureInfo => decide (info.name = name)) ∘ StructureInfo.unidentified =
      fun info => decide (info.name = name) := rfl
  rw [same]
  cases schema.structures.find? fun info => info.name = name <;> rfl

@[simp]
theorem key_naming_unidentified (type : Ty) :
    schema.unidentified.keyNaming? type = schema.keyNaming? type := by
  cases type with
  | boxed inner => simpa [keyNaming?] using key_naming_unidentified inner
  | primitive _ | string | textual _ | enumeration _ | record _ | option _ | sequence _ _ => rfl
  | map _ _ _ | tuple _ => rfl

mutual

@[simp]
theorem default_unidentified (type : Ty) :
    schema.unidentified.default type = schema.default type := by
  cases type with
  | tuple slots => simp [default, defaults_unidentified slots]
  | boxed inner => simp [default, default_unidentified inner]
  | record name => simp [default, StructureInfo.unidentified]
  | primitive scalar => cases scalar <;> rfl
  | string | textual _ | enumeration _ | option _ | sequence _ _ | map _ _ _ => rfl

theorem defaults_unidentified (types : List Ty) :
    schema.unidentified.defaults types = schema.defaults types := by
  cases types with
  | nil => rfl
  | cons type rest => simp [defaults, default_unidentified type, defaults_unidentified rest]

end

section Writing

variable {Structs Arrays : Type} {sink : Sink Structs Arrays} {deeper : String → Val → Step Structs}

mutual

theorem write_at_unidentified (type : Ty) (value : Val) {State : Type}
    (outlet : Outlet Structs Arrays State) :
    schema.unidentified.writeAt sink deeper type value outlet =
      schema.writeAt sink deeper type value outlet := by
  cases type with
  | primitive _ | string | textual _ | record _ => rw [writeAt, writeAt]
  | enumeration _ => rw [writeAt, writeAt, enumeration_info_unidentified]
  | option inner =>
      rw [writeAt, writeAt]
      cases value.content? with
      | none => rfl
      | some content => exact write_at_unidentified inner content outlet
  | sequence kind item => simp only [writeAt, write_at_unidentified item]
  | map kind keyType valueType =>
      simp only [writeAt, key_naming_unidentified, write_at_unidentified keyType,
        write_at_unidentified valueType]
  | tuple slots => simp only [writeAt, write_slots_unidentified slots]
  | boxed inner => simp only [writeAt, write_at_unidentified inner]

theorem write_slots_unidentified (types : List Ty) (values : List Val) :
    schema.unidentified.writeSlots sink deeper types values =
      schema.writeSlots sink deeper types values := by
  cases types with
  | nil => simp only [writeSlots]
  | cons type types =>
      cases values with
      | nil => simp only [writeSlots]
      | cons value values =>
          simp only [writeSlots, write_at_unidentified type, write_slots_unidentified types]

end

mutual

theorem write_member_unidentified (owner : Val) (member : Member) :
    schema.unidentified.writeMember sink deeper owner member.unidentified =
      schema.writeMember sink deeper owner member := by
  cases member with
  | field head type =>
      simp only [Member.unidentified, writeMember, write_at_unidentified, default_unidentified]
  | extend head base members =>
      simp only [Member.unidentified, writeMember, structure_info_unidentified,
        StructureInfo.unidentified, write_members_unidentified _ members]

theorem write_members_unidentified (owner : Val) (members : List Member) :
    schema.unidentified.writeMembers sink deeper owner (Member.allUnidentified members) =
      schema.writeMembers sink deeper owner members := by
  cases members with
  | nil => rfl
  | cons member rest =>
      simp only [Member.allUnidentified, writeMembers, write_member_unidentified owner member,
        write_members_unidentified owner rest]

end

/-- The induction is on the levels of structures. -/
theorem write_structure_unidentified (levels : Nat) (name : String) (value : Val) :
    schema.unidentified.writeStructure sink levels name value =
      schema.writeStructure sink levels name value := by
  induction levels generalizing name value with
  | zero => rfl
  | succ levels induction =>
      have deeper : schema.unidentified.writeStructure sink levels =
          schema.writeStructure sink levels := funext₂ induction
      rw [writeStructure, writeStructure, structure_info_unidentified, deeper]
      unfold StructureInfo.unidentified
      cases (schema.structureInfo name).members with
      | error fault => rfl
      | ok members => exact write_members_unidentified value members

theorem write_unidentified (type : Ty) (value : Val) {State : Type}
    (outlet : Outlet Structs Arrays State) :
    schema.unidentified.write sink type value outlet = schema.write sink type value outlet := by
  have deeper : schema.unidentified.writeStructure sink value.depth =
      schema.writeStructure sink value.depth := funext₂ (write_structure_unidentified value.depth)
  rw [write, write, deeper, write_at_unidentified]

end Writing

section Reading

variable {deeper : String → Val → Fields → Reading Val Fields}

mutual

theorem read_at_unidentified (type : Ty) (target : Val) {State : Type} (inlet : Inlet State)
    (state : State) :
    schema.unidentified.readAt deeper type target inlet state =
      schema.readAt deeper type target inlet state := by
  cases type with
  | primitive _ | string | textual _ | record _ => rw [readAt, readAt]
  | enumeration _ => simp only [readAt, enumeration_info_unidentified]
  | option inner =>
      simp only [readAt, default_unidentified, read_at_unidentified inner]
  | sequence kind item =>
      simp only [readAt, default_unidentified, read_at_unidentified item]
  | map kind keyType valueType =>
      have key (target : Val) (inlet : Inlet Fields) :
          schema.unidentified.readAt deeper keyType target inlet =
            schema.readAt deeper keyType target inlet :=
        funext (read_at_unidentified keyType target inlet)
      have value (target : Val) (inlet : Inlet Fields) :
          schema.unidentified.readAt deeper valueType target inlet =
            schema.readAt deeper valueType target inlet :=
        funext (read_at_unidentified valueType target inlet)
      simp only [readAt, key_naming_unidentified, default_unidentified, key, value]
  | tuple slots => simp only [readAt, read_slots_unidentified slots]
  | boxed inner => simp only [readAt, read_at_unidentified inner]

theorem read_slots_unidentified (types : List Ty) (arity position : Nat) (targets : List Val)
    (slots : Slots) :
    schema.unidentified.readSlots deeper arity position types targets slots =
      schema.readSlots deeper arity position types targets slots := by
  cases types with
  | nil => simp only [readSlots]
  | cons type types =>
      simp only [readSlots, default_unidentified, read_at_unidentified type,
        read_slots_unidentified types]

end

mutual

theorem read_member_unidentified (owner : Val) (fields : Fields) (member : Member) :
    schema.unidentified.readMember deeper owner fields member.unidentified =
      schema.readMember deeper owner fields member := by
  cases member with
  | field head type =>
      simp only [Member.unidentified, readMember, read_at_unidentified, default_unidentified]
  | extend head base members =>
      simp only [Member.unidentified, readMember, structure_info_unidentified,
        StructureInfo.unidentified, read_members_unidentified _ _ members]

theorem read_members_unidentified (owner : Val) (fields : Fields) (members : List Member) :
    schema.unidentified.readMembers deeper owner fields (Member.allUnidentified members) =
      schema.readMembers deeper owner fields members := by
  cases members with
  | nil => rfl
  | cons member rest =>
      simp only [Member.allUnidentified, readMembers, read_member_unidentified owner fields member,
        read_members_unidentified _ _ rest]

end

theorem read_structure_unidentified (levels : Nat) (name : String) (target : Val) (fields : Fields) :
    schema.unidentified.readStructure levels name target fields =
      schema.readStructure levels name target fields := by
  induction levels generalizing name target fields with
  | zero => rfl
  | succ levels induction =>
      have deeper : schema.unidentified.readStructure levels = schema.readStructure levels :=
        funext fun name => funext₂ (induction name)
      rw [readStructure, readStructure, structure_info_unidentified, deeper]
      unfold StructureInfo.unidentified
      cases (schema.structureInfo name).members with
      | error fault => rfl
      | ok members => exact read_members_unidentified target fields members

theorem read_unidentified (type : Ty) (target : Val) {State : Type} (inlet : Inlet State)
    (state : State) :
    schema.unidentified.read type target inlet state = schema.read type target inlet state := by
  have deeper : schema.unidentified.readObject = schema.readObject :=
    funext fun name => funext₂ fun target fields => read_structure_unidentified _ name target fields
  rw [read, read, deeper, read_at_unidentified]

end Reading

/-- That two schemas differ in nothing but identities. -/
def SameUnidentified (first second : Schema) : Prop := first.unidentified = second.unidentified

namespace SameUnidentified

variable {first second : Schema}

theorem default (same : first.SameUnidentified second) (type : Ty) :
    first.default type = second.default type := by
  have unidentified : first.unidentified = second.unidentified := same
  rw [← default_unidentified, unidentified, default_unidentified]

theorem members (same : first.SameUnidentified second) (base : String) :
    (first.structureInfo base).members.map Member.allUnidentified =
      (second.structureInfo base).members.map Member.allUnidentified := by
  have infos := congrArg (fun schema => (schema.structureInfo base).members) same
  simpa only [structure_info_unidentified, StructureInfo.unidentified] using infos

theorem parts : first.SameUnidentified second ↔
    first.structures.map StructureInfo.unidentified = second.structures.map StructureInfo.unidentified ∧
      first.enumerations = second.enumerations ∧ first.textuals = second.textuals := by
  unfold SameUnidentified unidentified
  rw [Schema.mk.injEq]

theorem addStructure (same : first.SameUnidentified second) {info other : StructureInfo}
    (added : info.unidentified = other.unidentified) :
    SameUnidentified { first with structures := first.structures ++ [info] }
      { second with structures := second.structures ++ [other] } := by
  obtain ⟨structures, enumerations, textuals⟩ := parts.mp same
  refine parts.mpr ⟨?_, enumerations, textuals⟩
  rw [List.map_append, List.map_append, structures, List.map_singleton, List.map_singleton, added]

theorem addEnumeration (same : first.SameUnidentified second) (info : EnumerationInfo) :
    SameUnidentified { first with enumerations := first.enumerations ++ [info] }
      { second with enumerations := second.enumerations ++ [info] } := by
  obtain ⟨structures, enumerations, textuals⟩ := parts.mp same
  exact parts.mpr ⟨structures, congrArg (· ++ [info]) enumerations, textuals⟩

/-- Schemas that differ in nothing but identities write and read the same documents. -/
theorem documents (same : first.SameUnidentified second) (type : Ty) :
    (∀ value name, first.writeNamed type value name = second.writeNamed type value name) ∧
    (∀ value, first.writeNext type value = second.writeNext type value) ∧
    (∀ target name fields,
      first.readNamed type target name fields = second.readNamed type target name fields) ∧
    ∀ target slots, first.readNext type target slots = second.readNext type target slots := by
  have unidentified : first.unidentified = second.unidentified := same
  refine ⟨fun value name => ?_, fun value => ?_, fun target name fields => ?_, fun target slots => ?_⟩
  · rw [writeNamed, ← write_unidentified, unidentified, write_unidentified]
    rfl
  · rw [writeNext, ← write_unidentified, unidentified, write_unidentified]
    rfl
  · rw [readNamed, ← read_unidentified, unidentified, read_unidentified]
    rfl
  · rw [readNext, ← read_unidentified, unidentified, read_unidentified]
    rfl

end SameUnidentified

end Schema

end Marshal
