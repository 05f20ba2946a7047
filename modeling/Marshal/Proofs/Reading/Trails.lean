import Marshal.Proofs.Reading.Elements
import Marshal.Proofs.Reading.Sites
import Marshal.Proofs.RoundTrip.Values
import Marshal.Proofs.Settings.Decoding
import Marshal.Proofs.Structure.Acceptance

/-!
# Where the faults of a reading point

Segments are put before a fault's trail while it travels up, by members, entries, elements and
slots. Each of them stands where the trail says, so the trail leads through the document from the
node that is read to the place where the fault has arisen.
-/

namespace Marshal

section Decoding

variable {fault : Fault}

theorem AnyValue.get_own {source : AnyValue} {type : Ty}
    (failed : source.getOrFault type = .error fault) : fault.IsOwn := by
  unfold getOrFault get at failed
  split at failed
  · cases failed
    exact Fault.own_of (by simp)
  · split at failed <;> cases failed
    exact Fault.own_of (by simp)

theorem Primitive.narrow_own (scalar : Primitive) (source : AnyValue) (fault : Fault)
    (failed : scalar.narrow source = .error fault) : fault.IsOwn := by
  cases scalar with
  | bool =>
      rw [narrow] at failed
      split at failed <;> cases failed
      exact Fault.own_of (by simp)
  | int kind =>
      rw [narrow, narrowInt] at failed
      split at failed
      · split at failed <;> cases failed
        exact Fault.own_of (by simp)
      · cases failed
        exact Fault.own_of (by simp)
  | single =>
      rw [narrow] at failed
      split at failed
      · split at failed <;> cases failed
        exact Fault.own_of (by simp)
      · cases failed
        exact Fault.own_of (by simp)
  | double =>
      rw [narrow] at failed
      split at failed <;> cases failed
      exact Fault.own_of (by simp)

namespace EnumTable

variable {Enumerator : Type} [DecidableEq Enumerator] {owner : String}
  {entries more : List (String × Enumerator)}

theorem add_own {entry : String × Enumerator} (failed : add owner entries entry = .error fault) :
    fault.IsOwn := by
  unfold add at failed
  split_ifs at failed
  · cases failed
    exact Fault.own_of (by simp)
  · split at failed <;> cases failed
    exact Fault.own_of (by simp)

theorem add_all_own (failed : addAll owner entries more = .error fault) : fault.IsOwn := by
  induction more generalizing entries with
  | nil => cases failed
  | cons entry rest induction =>
      unfold addAll at failed
      split at failed
      · exact induction failed
      · rename_i first
        cases failed
        exact add_own first

theorem declare_own (failed : declare owner entries = .error fault) : fault.IsOwn := by
  unfold declare at failed
  split at failed
  · rename_i added
    cases failed
    exact add_all_own added
  · cases failed
    exact Fault.own_of (by simp)
  · cases failed

end EnumTable

end Decoding

theorem Declaration.Declared.is_own {outcome : Except Fault (List Member)}
    (declared : Declared outcome) {fault : Fault} (failed : outcome = .error fault) :
    fault.IsOwn := by
  obtain ⟨kind, trail⟩ := declared.own_fault failed
  refine ⟨trail, fun name missing => ?_⟩
  rw [Fault.kind, missing] at kind
  cases kind

namespace Schema

/-- That the structures and the enumerations of a schema have been declared. -/
structure Assembled (schema : Schema) : Prop where
  structures : ∀ name, Declaration.Declared (schema.structureInfo name).members
  tables : ∀ name, ∃ owner entries,
    (schema.enumerationInfo name).table = EnumTable.declare owner entries

variable {schema : Schema}

/-- A schema without enumerations is assembled if all structures that it describes are declared. -/
theorem assembled_of_structures (plain : schema.enumerations = [])
    (declared : ∀ info ∈ schema.structures, Declaration.Declared info.members) :
    schema.Assembled where
  structures name := by
    rcases structure_info_cases schema name with ⟨info, inside, rfl, same⟩ | unknown
    · rw [same]
      exact declared info inside
    · have empty : Declaration.Declared (Declaration.build name []) := .build name (by simp)
      rwa [unknown]
  tables name := ⟨name, [], by rw [enumerationInfo, plain]; rfl⟩

theorem Assembled.code_own (assembled : schema.Assembled) {name text : String} {fault : Fault}
    (failed : (schema.enumerationInfo name).codeOf text = .error fault) : fault.IsOwn := by
  obtain ⟨owner, entries, table⟩ := assembled.tables name
  unfold EnumerationInfo.codeOf at failed
  split at failed
  · rename_i broken
    cases failed
    rw [table] at broken
    exact EnumTable.declare_own broken
  · split at failed <;> cases failed
    exact Fault.own_of (by simp)

section Level

variable {deeper : String → Val → Fields → Reading Val Fields}

mutual

/-- Whatever is read at a place of a document is traced. The recursion follows the type. -/
theorem read_at_traced (assembled : schema.Assembled)
    (structures : ∀ name target fields, (deeper name target fields).Traced Node.struct fields)
    (type : Ty) (target : Val) {State : Type} (site : Site State)
    (state : State) : site.Traced state (schema.readAt deeper type target site.inlet state) := by
  cases type with
  | primitive scalar =>
      rw [readAt]
      exact Site.scalar_traced scalar.narrow_own target
  | string =>
      rw [readAt]
      exact Site.scalar_traced (fun source fault => AnyValue.get_own) target
  | textual name =>
      rw [readAt]
      exact Site.scalar_traced (fun source fault => AnyValue.get_own) target
  | enumeration name =>
      rw [readAt]
      apply Site.scalar_traced
      intro source fault failed
      split at failed
      · rename_i unread
        cases failed
        exact AnyValue.get_own unread
      · rename_i text read
        cases code : (schema.enumerationInfo name).codeOf text.asText with
        | ok number =>
            rw [code] at failed
            cases failed
        | error inner =>
            rw [code] at failed
            cases failed
            exact assembled.code_own code
  | record name =>
      rw [readAt]
      rcases site.structs_cases state with ⟨fault, opened, blames⟩ | ⟨child, opened, found⟩
      · rw [opened]
        exact Site.refused blames target []
      · rw [opened]
        have traced := structures name target child
        exact Site.struct_closed found traced.kept traced.points _ _
  | option inner =>
      rw [readAt]
      split_ifs with exhausted held
      · exact Site.traced_ok rfl _ _
      · have content := read_at_traced assembled structures inner (schema.default inner) site state
        exact Site.settle_traced content inner target
      · obtain ⟨left, skipped, kept⟩ := site.skip_kept state (Bool.eq_false_iff.mpr exhausted)
        rw [skipped]
        exact Site.traced_ok kept _ _
  | sequence kind item =>
      rw [readAt]
      rcases site.arrays_cases state with ⟨fault, opened, blames⟩ | ⟨items, cursor, opened, found⟩
      · rw [opened]
        exact Site.refused blames target []
      · rw [opened]
        have items := read_at_traced assembled structures item (schema.default item) Slots.site
        exact Site.array_closed found (read_elements_traced items _ _ _ _) _ _
  | map kind keyType valueType =>
      rw [readAt]
      cases schema.keyNaming? keyType with
      | some naming =>
          dsimp only
          rcases site.structs_cases state with ⟨fault, opened, blames⟩ | ⟨child, opened, found⟩
          · rw [opened]
            exact Site.refused blames target []
          · rw [opened]
            have values (name : String) := read_at_traced assembled structures valueType
              (schema.default valueType) (Fields.site name)
            have traced := read_entries_traced naming keyType.name values child.names [] child
            exact Site.struct_closed found traced.kept traced.points _ _
      | none =>
          dsimp only
          rcases site.arrays_cases state with ⟨fault, opened, blames⟩ | ⟨items, cursor, opened, found⟩
          · rw [opened]
            exact Site.refused blames target []
          · rw [opened]
            have keys := read_at_traced assembled structures keyType (schema.default keyType)
              (Fields.site keyField)
            have values := read_at_traced assembled structures valueType (schema.default valueType)
              (Fields.site valueField)
            have records := read_record_traced keys values
            exact Site.array_closed found (read_elements_traced records _ _ _ _) _ _
  | tuple slots =>
      rw [readAt]
      rcases site.arrays_cases state with ⟨fault, opened, blames⟩ | ⟨items, cursor, opened, found⟩
      · rw [opened]
        exact Site.refused blames target []
      · rw [opened]
        exact Site.array_closed found
          (read_slots_traced assembled structures slots slots.length target.slots ⟨items, 0⟩) _ _
  | boxed inner =>
      rw [readAt]
      exact read_at_traced assembled structures inner target site state

/-- The slots of a tuple are read at the positions that their faults say. -/
theorem read_slots_traced (assembled : schema.Assembled)
    (structures : ∀ name target fields, (deeper name target fields).Traced Node.struct fields)
    (types : List Ty) (arity : Nat) (targets : List Val) (slots : Slots) :
    (schema.readSlots deeper arity slots.cursor types targets slots).Traced Node.ofSlots slots := by
  cases types with
  | nil =>
      rw [readSlots]
      split_ifs
      · exact Reading.traced_ok rfl targets []
      · exact Reading.traced_own (Fault.own_of (by simp)) targets []
  | cons type types =>
      rw [readSlots]
      split_ifs with complete
      · exact Reading.traced_own (Fault.own_of (by simp)) targets []
      · have remaining := Bool.eq_false_iff.mpr complete
        have own := read_at_traced assembled structures type
          (targets.head?.getD (schema.default type)) Slots.site slots
        -- The faults of the slots after this one say where the array then stands.
        have moved := schema.read_at_cursor deeper type (targets.head?.getD (schema.default type))
          remaining
        dsimp only
        split
        · rename_i fault failed
          exact Reading.traced_error own.kept
            (Slots.points_at_index remaining (own.blames fault failed)) _ _
        · rw [← moved]
          have others := read_slots_traced assembled structures types arity targets.tail
            (schema.readAt deeper type (targets.head?.getD (schema.default type)) Slots.inlet
              slots).source
          have others := others.earlier own.kept
          exact ⟨others.kept, others.points⟩

end

mutual

theorem read_member_traced (assembled : schema.Assembled)
    (structures : ∀ name target fields, (deeper name target fields).Traced Node.struct fields)
    (member : Member) (owner : Val) (fields : Fields) :
    (schema.readMember deeper owner fields member).Traced Node.struct fields := by
  cases member with
  | field head type =>
      rw [readMember]
      exact Fields.traced_in_field (read_at_traced assembled structures type
        (memberValue owner head.path (schema.default type)) (Fields.site head.name) fields) _ _
  | extend head base members =>
      rw [readMember]
      have traced := read_members_traced assembled structures members
        (memberValue owner head.path (schema.structureInfo base).initial) fields
      exact ⟨traced.kept, traced.points⟩

theorem read_members_traced (assembled : schema.Assembled)
    (structures : ∀ name target fields, (deeper name target fields).Traced Node.struct fields)
    (members : List Member) (owner : Val) (fields : Fields) :
    (schema.readMembers deeper owner fields members).Traced Node.struct fields := by
  cases members with
  | nil =>
      rw [readMembers]
      exact Reading.traced_ok rfl owner []
  | cons member rest =>
      rw [readMembers]
      have own := read_member_traced assembled structures member owner fields
      split
      · rename_i fault failed
        exact Reading.traced_error own.kept (own.points fault failed) _ _
      · exact ((read_members_traced assembled structures rest _ _).earlier own.kept).after _

end

end Level

theorem read_structure_traced (assembled : schema.Assembled) (levels : Nat) (name : String)
    (target : Val) (fields : Fields) :
    (schema.readStructure levels name target fields).Traced Node.struct fields := by
  induction levels generalizing name target fields with
  | zero => exact Reading.traced_ok rfl target []
  | succ levels induction =>
      rw [readStructure]
      cases declared : (schema.structureInfo name).members with
      | error fault =>
          exact Reading.traced_own ((assembled.structures name).is_own declared) target []
      | ok members => exact read_members_traced assembled induction members target fields

theorem object_traced (assembled : schema.Assembled) (name : String) (target : Val) (fields : Fields) :
    (schema.readObject name target fields).Traced Node.struct fields :=
  read_structure_traced assembled _ name target fields

theorem read_traced (assembled : schema.Assembled) (type : Ty) (target : Val) {State : Type}
    (site : Site State) (state : State) :
    site.Traced state (schema.read type target site.inlet state) :=
  read_at_traced assembled (object_traced assembled) type target site state

end Schema

namespace Entries

variable {schema : Schema}

theorem decode_entry_traced (assembled : schema.Assembled) (name : String) (entry : Entry)
    (fields : Fields) : (decodeEntry schema name entry fields).Traced Node.struct fields := by
  unfold decodeEntry
  split_ifs with held
  · dsimp only
    unfold Schema.readAny
    cases own : entry.value.getOrFault entry.type with
    | error fault =>
        obtain ⟨node, found⟩ := get_of_holds held
        have points := (AnyValue.get_own own).points_into node
        exact Reading.traced_error rfl (points.in_field found) _ _
    | ok value =>
        exact Fields.traced_in_field
          (Schema.read_traced assembled entry.type value (Fields.site name) fields) _ _
  · exact Reading.traced_ok rfl entry []

theorem decode_all_traced (assembled : schema.Assembled) (entries : Entries) (fields : Fields) :
    (decodeAll schema entries fields).Traced Node.struct fields := by
  induction entries generalizing fields with
  | nil => exact Reading.traced_ok rfl [] []
  | cons named rest induction =>
      obtain ⟨name, entry⟩ := named
      have own := decode_entry_traced assembled name entry fields
      rw [decodeAll]
      split
      · rename_i fault failed
        exact Reading.traced_error own.kept (own.points fault failed) _ _
      · have others := (induction _).earlier own.kept
        exact ⟨others.kept, others.points⟩

theorem read_traced (assembled : schema.Assembled) (entries : Entries) (fields : Fields) :
    (read schema entries fields).Traced Node.struct fields := by
  have traced := decode_all_traced assembled entries fields
  rw [read]
  split
  · exact Reading.traced_ok traced.kept _ _
  · rename_i fault failed
    exact Reading.traced_error traced.kept (traced.points fault failed) _ _

theorem read_at_traced (assembled : schema.Assembled) (entries : Entries) {State : Type}
    (site : Site State) (state : State) :
    site.Traced state (readAt schema entries site.inlet state) := by
  rw [readAt]
  rcases site.structs_cases state with ⟨fault, opened, blames⟩ | ⟨child, opened, found⟩
  · rw [opened]
    exact Site.refused blames entries []
  · rw [opened]
    have traced := read_traced assembled entries child
    exact Site.struct_closed found traced.kept traced.points _ _

end Entries

namespace Fault

/-- That a fault is for want of a field, or points into what the field holds. -/
def AtField (fault : Fault) (fields : Fields) (name : String) : Prop :=
  match fields.get? name with
  | some node => fault.PointsInto node
  | none => fault = .of (.missingField name)

/-- That a fault is for want of a next element, or points into the one there is. -/
def AtNext (fault : Fault) (slots : Slots) : Prop :=
  match slots.current? with
  | some node => fault.PointsInto node
  | none => fault = .of (.slotMissing slots.items.length slots.cursor)

variable {fault : Fault}

theorem at_field {fields : Fields} {name : String}
    (blames : (Fields.site name).Blames fields fault) :
    fault.AtField fields name := by
  unfold AtField
  rcases blames with missing | ⟨node, found, points⟩
  · obtain ⟨absent, same⟩ := Fields.find_error missing
    rw [absent]
    exact same
  · rw [Fields.find_ok found]
    exact points

theorem at_next {slots : Slots} (blames : Slots.site.Blames slots fault) : fault.AtNext slots := by
  unfold AtNext
  rcases blames with missing | ⟨node, found, points⟩
  · obtain ⟨absent, same⟩ := Slots.next_error missing
    rw [absent]
    exact same
  · rw [Slots.current?, (Slots.next_ok found).1]
    exact points

end Fault

/-- Where reading fails, the fault's trail leads through the document from the node that was to be
read: each name is that of a field of the struct that the trail has come to, each index that of an
element of the array. Only the last name of a missing field's trail is that of no field. This goes
for values and settings that are read as a field or as the next element, and for structures and
settings that are read from an open struct. -/
theorem Schema.fault_trails_resolve {schema : Schema} (assembled : schema.Assembled)
    (fault : Fault) :
    (∀ type target name fields, (schema.readNamed type target name fields).outcome = .error fault →
      fault.AtField fields name) ∧
    (∀ type target slots, (schema.readNext type target slots).outcome = .error fault →
      fault.AtNext slots) ∧
    (∀ name target fields, (schema.readObject name target fields).outcome = .error fault →
      fault.PointsInto (.struct fields)) ∧
    (∀ entries fields, (Entries.read schema entries fields).outcome = .error fault →
      fault.PointsInto (.struct fields)) ∧
    (∀ entries name fields,
      (Entries.readAt schema entries (Fields.inlet name) fields).outcome = .error fault →
        fault.AtField fields name) ∧
    ∀ entries slots, (Entries.readAt schema entries Slots.inlet slots).outcome = .error fault →
      fault.AtNext slots := by
  refine ⟨?_, ?_, ?_, ?_, ?_, ?_⟩
  · intro type target name fields failed
    exact Fault.at_field
      ((read_traced assembled type target (Fields.site name) fields).blames _ failed)
  · intro type target slots failed
    exact Fault.at_next ((read_traced assembled type target Slots.site slots).blames _ failed)
  · intro name target fields failed
    exact (read_structure_traced assembled _ name target fields).points _ failed
  · intro entries fields failed
    exact (Entries.read_traced assembled entries fields).points _ failed
  · intro entries name fields failed
    exact Fault.at_field
      ((Entries.read_at_traced assembled entries (Fields.site name) fields).blames _ failed)
  · intro entries slots failed
    exact Fault.at_next ((Entries.read_at_traced assembled entries Slots.site slots).blames _ failed)

theorem Route.assembled : Route.schema.Assembled := by
  have declared : Declaration.Declared (Declaration.build "Stop" calls) :=
    .build "Stop" (by simp [calls])
  exact Schema.assembled_of_structures rfl (List.forall_mem_singleton.mpr declared)

/-- A fare that is not a number, inside of the fares of a stop, and a stop that has no fares. -/
theorem Schema.fault_trails_resolve_fares :
    let target := Route.stop "" [] .absent 3
    let unread : Fields := [("name", .text "North"), ("fares", .struct [("child", .text "free")])]
    let unreadFault : Fault :=
      ⟨.typeMismatch "i32" "alloc::string::String", [.field "fares", .field "child"]⟩
    let missing : Fields := [("name", .text "North")]
    let missingFault : Fault := ⟨.missingField "fares", [.field "fares"]⟩
    Route.schema.Assembled ∧
      (Route.schema.readObject "Stop" target unread).outcome = .error unreadFault ∧
      unreadFault.PointsInto (.struct unread) ∧
      (Route.schema.readObject "Stop" target missing).outcome = .error missingFault ∧
      missingFault.PointsInto (.struct missing) := by
  intro target unread unreadFault missing missingFault
  have unreadFails :
      (Route.schema.readObject "Stop" target unread).outcome = .error unreadFault := by
    decide +kernel
  have missingFails :
      (Route.schema.readObject "Stop" target missing).outcome = .error missingFault := by
    decide +kernel
  obtain ⟨-, -, unreadResolves, -⟩ := fault_trails_resolve Route.assembled unreadFault
  obtain ⟨-, -, missingResolves, -⟩ := fault_trails_resolve Route.assembled missingFault
  exact ⟨Route.assembled, unreadFails, unreadResolves "Stop" target unread unreadFails, missingFails,
    missingResolves "Stop" target missing missingFails⟩

end Marshal
