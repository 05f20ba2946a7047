import Marshal.Proofs.RoundTrip.Arrival
import Marshal.Proofs.Structure.Inlining

/-!
# The document of a structure

No member of a structure overwrites what another one has written: the document of a value has one
field for each plain member, in declaration order, without those that are left out, and under each
name what the member writes by itself.
-/

namespace Marshal

/-- Whether nothing is written of a plain member's value. -/
def Leaf.leftOut (value : Val) (leaf : Leaf) : Bool :=
  (value.get? leaf.path).any leaf.type.leavesOut

theorem Member.leaves_among {members : List Member} {member : Member} (inside : member ∈ members) :
    member.leaves ⊆ Member.leavesAll members := by
  induction members with
  | nil => cases inside
  | cons first rest induction =>
      rw [leavesAll]
      rcases List.mem_cons.mp inside with rfl | inside
      · exact List.subset_append_left _ _
      · exact List.Subset.trans (induction inside) (List.subset_append_right _ _)

/-- Under new names, nodes are added at the end. -/
theorem Fields.leave_all_absent (nodes : String → Option Node) {names : List String}
    (distinct : names.Nodup) {fields : Fields} (absent : ∀ name ∈ names, name ∉ fields.names) :
    fields.leaveAll nodes names =
      fields ++ names.filterMap fun name => (nodes name).map fun node => (name, node) := by
  induction names generalizing fields with
  | nil => simp [leaveAll]
  | cons name rest induction =>
      rw [List.nodup_cons] at distinct
      rw [List.forall_mem_cons] at absent
      rw [leaveAll, List.foldl_cons, ← leaveAll]
      cases found : nodes name with
      | none =>
          rw [List.filterMap_cons_none (by rw [found]; rfl)]
          exact induction distinct.2 absent.2
      | some node =>
          have put : (Fields.place name).leave (some node) fields = fields ++ [(name, node)] :=
            put_absent absent.1 node
          rw [put, List.filterMap_cons_some (by rw [found]; rfl), induction distinct.2,
            List.append_assoc, List.singleton_append]
          intro other inside present
          rw [names, List.map_append, List.mem_append] at present
          rcases present with present | present
          · exact absent.2 other inside present
          · obtain rfl : other = name := by simpa using present
            exact distinct.1 inside

theorem Fields.names_of_nodes (nodes : String → Option Node) (names : List String) :
    Fields.names (names.filterMap fun name => (nodes name).map fun node => (name, node)) =
      names.filter fun name => (nodes name).isSome := by
  induction names with
  | nil => rfl
  | cons name rest induction =>
      rw [Fields.names] at induction ⊢
      cases found : nodes name with
      | none =>
          rw [List.filterMap_cons_none (by rw [found]; rfl), List.filter_cons_of_neg (by simp [found])]
          exact induction
      | some node =>
          rw [List.filterMap_cons_some (by rw [found]; rfl), List.filter_cons_of_pos (by simp [found]),
            List.map_cons, induction]

theorem Fields.names_leave_all (nodes : String → Option Node) {names : List String}
    (distinct : names.Nodup) :
    Fields.names (Fields.leaveAll nodes names []) = names.filter fun name => (nodes name).isSome := by
  rw [leave_all_absent nodes distinct (by simp [Fields.names]), List.nil_append, names_of_nodes]

namespace Schema

variable {schema : Schema}

/-- That a value is written as the same node wherever it is written, and leaves a place empty exactly
if it is left out. -/
structure WrittenAs (schema : Schema) (type : Ty) (value : Val) (node? : Option Node) : Prop where
  written : schema.Written type value node?
  empty : node? = none ↔ type.leavesOut value = true

theorem Carries.written_as {type : Ty} (required : type.isOptional = false) {value : Val}
    (carried : ∃ node?, schema.Carries type value node?) :
    ∃ node?, schema.WrittenAs type value node? := by
  obtain ⟨node?, carries⟩ := carried
  have filled := carries.filled required
  exact ⟨node?, carries.written, by simp [filled, Ty.leaves_out_required required]⟩

/-- The entries of a map are written to the same fields however deep structures are written. Keys
that share a name leave the field of the last one. -/
theorem named_entries_written (keyType : Ty) {valueType : Ty} {naming : KeyNaming}
    {entries : List (Val × Val)}
    (each : ∀ entry ∈ entries, (∃ name, naming.toName? entry.1.asText = some name) ∧
      ∃ node?, schema.Written valueType entry.2 node?) (fields : Fields) :
    ∃ result, ∀ levels, Val.depthEntries entries ≤ levels →
      Step.all (entries.map fun entry =>
        match naming.toName? entry.1.asText with
        | none => .fail (.of (.keyNotWritable keyType.name))
        | some name => (schema.writeAt treeSink (schema.writeStructure treeSink levels) valueType
            entry.2 (treeSink.field name)).inField name) fields = (.ok (), result) := by
  induction entries generalizing fields with
  | nil => exact ⟨fields, fun _ _ => rfl⟩
  | cons entry rest induction =>
      rw [List.forall_mem_cons] at each
      obtain ⟨⟨⟨name, named⟩, node?, written⟩, each⟩ := each
      obtain ⟨result, others⟩ := induction each ((Fields.place name).leave node? fields)
      refine ⟨result, fun levels enough => ?_⟩
      rw [Val.depthEntries] at enough
      have own := written levels (by omega) (Fields.place name) fields
      have place : treeSink.field name = (Fields.place name).outlet := rfl
      have further := others levels (by omega)
      simp only [List.map_cons, Step.all, List.foldr_cons, named, Step.andThen, Step.inField,
        Step.mapFault, place, own] at further ⊢
      exact further

theorem named_map_written_as {kind : MapKind} {keyType valueType : Ty} {naming : KeyNaming}
    (named : schema.keyNaming? keyType = some naming) {entries : List (Val × Val)}
    (each : ∀ entry ∈ entries, (∃ name, naming.toName? entry.1.asText = some name) ∧
      ∃ node?, schema.Written valueType entry.2 node?) :
    ∃ node?, schema.WrittenAs (.map kind keyType valueType) (.map entries) node? := by
  obtain ⟨fields, written⟩ := named_entries_written keyType each []
  refine ⟨some (.struct fields), ?_, by simp [Ty.leavesOut]⟩
  intro levels enough State place state
  rw [Val.depth] at enough
  rw [writeAt, named]
  dsimp only
  rw [place.struct_eq, Val.entries]
  exact congrArg (fun written => (written.1, place.leave (some (.struct written.2)) state))
    (written levels (Nat.le_of_succ_le enough))

/-- The nodes that the plain members of a value are written as, by their names. -/
theorem leaf_nodes (sound : schema.Sound) {name : String} {value : Val}
    (typed : schema.HasType (.record name) value)
    (each : ∀ leaf ∈ schema.leaves name, ∀ inner, value.get? leaf.path = some inner →
      ∃ node?, schema.WrittenAs leaf.type inner node?) :
    ∃ nodes : String → Option Node, ∀ leaf ∈ schema.leaves name,
      ∃ inner, value.get? leaf.path = some inner ∧ inner.depth < value.depth ∧
        schema.WrittenAs leaf.type inner (nodes leaf.name) := by
  apply nodes_by_name (fun leaf node? => ∃ inner, value.get? leaf.path = some inner ∧
    inner.depth < value.depth ∧ schema.WrittenAs leaf.type inner node?) (leaves_distinct sound name)
  intro leaf inside
  obtain ⟨inner, found, -⟩ := leads_get (leaf_leads sound inside).2 typed
  obtain ⟨node?, written⟩ := each leaf inside inner found
  exact ⟨node?, inner, found, leaf_below sound inside found, written⟩

theorem record_written_as (sound : schema.Sound) {name : String} {value : Val}
    (typed : schema.HasType (.record name) value)
    (declared : ∃ members, (schema.structureInfo name).members = .ok members)
    (each : ∀ leaf ∈ schema.leaves name, ∀ inner, value.get? leaf.path = some inner →
      ∃ node?, schema.WrittenAs leaf.type inner node?) :
    ∃ node?, schema.WrittenAs (.record name) value node? := by
  obtain ⟨members, declared⟩ := declared
  have leaves := leaves_declared declared
  obtain ⟨nodes, held⟩ := leaf_nodes sound typed each
  refine ⟨some (memberStruct nodes members), ?_, by simp [Ty.leavesOut]⟩
  apply structure_written declared
  intro levels enough leaf inside
  obtain ⟨inner, found, below, written⟩ := held leaf (leaves ▸ inside)
  exact ⟨inner, found, by omega, written.written⟩

/-- What can be written somewhere is written everywhere, and as the same node. The value becomes less
deep from a structure or a container to its parts, and the type smaller at a box. -/
theorem written_as (sound : schema.Sound) (type : Ty) (value : Val)
    (typed : schema.HasType type value) (writes : schema.Writes type value) :
    ∃ node?, schema.WrittenAs type value node? := by
  cases typed with
  | bool flag => exact Carries.written_as rfl (bool_carries flag)
  | int fits => exact Carries.written_as rfl (int_carries fits)
  | single number => exact Carries.written_as rfl (single_carries number)
  | double number => exact Carries.written_as rfl (double_carries number)
  | string text => exact Carries.written_as rfl (string_carries text)
  | textual text => exact Carries.written_as rfl (textual_carries _ text)
  | enumeration code =>
      exact Carries.written_as rfl (enumeration_carries sound (writes_mapped sound writes))
  | @record name fields known typed =>
      have typed := HasType.record known typed
      apply record_written_as sound typed (writes_declared writes)
      intro leaf inside inner found
      have below := leaf_below sound inside found
      exact written_as sound leaf.type inner (leads_found (leaf_leads sound inside).2 typed found)
        (writes_inside sound (.member inside found) writes)
  | @absent inner => exact ⟨none, absent_written inner, by simp [Ty.leavesOut]⟩
  | @present inner content typed =>
      have below : content.depth < (Val.present content).depth := Nat.lt_succ_self _
      obtain ⟨node?, written⟩ := written_as sound inner content typed
        (writes_inside sound .content writes)
      exact ⟨node?, written.written.present, written.empty⟩
  | @sequence kind item items typed =>
      have each : ∀ element ∈ items, ∃ node?, schema.Written item element node? := by
        intro element inside
        have below : element.depth < (Val.list items).depth :=
          Nat.lt_succ_of_le (Val.depth_item inside)
        exact (written_as sound item element (typed element inside)
          (writes_inside sound (.item inside) writes)).imp fun _ => WrittenAs.written
      obtain ⟨nodes, written⟩ := exists_forall₂ each
      exact ⟨_, sequence_written written, by simp [Ty.leavesOut]⟩
  | @map kind keyType valueType entries keys comparable values sorted =>
      have values : ∀ entry ∈ entries, ∃ node?, schema.Written valueType entry.2 node? := by
        intro entry inside
        have below : entry.2.depth < (Val.map entries).depth :=
          Nat.lt_succ_of_le (Val.depth_entry inside).2
        exact (written_as sound valueType entry.2 (values entry inside)
          (writes_inside sound (.value inside) writes)).imp fun _ => WrittenAs.written
      cases naming : schema.keyNaming? keyType with
      | some found =>
          exact named_map_written_as naming fun entry inside =>
            ⟨entry_named writes naming inside, values entry inside⟩
      | none =>
          have each : ∀ entry ∈ entries, ∃ nodes : Option Node × Option Node,
              schema.Written keyType entry.1 nodes.1 ∧ schema.Written valueType entry.2 nodes.2 := by
            intro entry inside
            have below : entry.1.depth < (Val.map entries).depth :=
              Nat.lt_succ_of_le (Val.depth_entry inside).1
            obtain ⟨key, keyWritten⟩ := written_as sound keyType entry.1 (keys entry inside)
              (writes_inside sound (.key inside) writes)
            obtain ⟨node?, written⟩ := values entry inside
            exact ⟨(key, node?), keyWritten.written, written⟩
          obtain ⟨nodes, written⟩ := exists_forall₂ each
          exact ⟨_, record_map_written naming written, by simp [recordArray, Ty.leavesOut]⟩
  | @tuple types slots typed =>
      have each : ∀ slot ∈ types.zip slots, ∃ node?, schema.Written slot.1 slot.2 node? := by
        intro slot inside
        have below : slot.2.depth < (Val.tuple slots).depth :=
          Nat.lt_succ_of_le (Val.depth_item (List.of_mem_zip inside).2)
        exact (written_as sound slot.1 slot.2 ((List.forall₂_iff_zip.mp typed).2 inside)
          (writes_inside sound (.slot inside) writes)).imp fun _ => WrittenAs.written
      obtain ⟨nodes, written⟩ := exists_forall₂ each
      exact ⟨_, tuple_written written, by simp [Ty.leavesOut]⟩
  | @boxed inner value typed =>
      obtain ⟨node?, written⟩ := written_as sound inner value typed
        (writes_inside sound .boxed writes)
      exact ⟨node?, written.written.boxed, written.empty⟩
termination_by (value.depth, sizeOf type)
decreasing_by
  all_goals subst_vars
  all_goals simp only [Prod.lex_def, Ty.boxed.sizeOf_spec, true_and]
  all_goals omega

/-- That every plain member of a written structure can be written by itself. -/
theorem leaves_write (sound : schema.Sound) {name : String} {members : List Member}
    (declared : (schema.structureInfo name).members = .ok members) {value : Val} {fields : Fields}
    (ok : (schema.writeObject treeSink name value fields).1 = .ok ()) :
    ∀ leaf ∈ schema.leaves name, ∀ inner, value.get? leaf.path = some inner →
      schema.Writes leaf.type inner := by
  have leaves := leaves_declared declared
  have positive := value.depth_positive
  obtain ⟨levels, enough⟩ := Nat.exists_eq_add_one_of_ne_zero (by omega : value.depth ≠ 0)
  intro leaf inside inner found
  have below := leaf_below sound inside found
  rw [writeObject, enough, writeStructure, declared] at ok
  obtain ⟨state, done⟩ := members_write members ok leaf (leaves ▸ inside) inner found
  exact ⟨levels, by omega, Fields, Fields.place leaf.name, state, done⟩

/-- A structure that is written to an empty document leaves the fields of its plain members there, in
declaration order and each once, without those that are left out. Under each name is what the plain
member writes when it is written alone, and so is it for members that extend other structures. -/
theorem members_written_apart (sound : schema.Sound) {name : String} {members : List Member}
    (declared : (schema.structureInfo name).members = .ok members) {value : Val}
    (typed : schema.HasType (.record name) value) {document : Fields}
    (ok : schema.writeObject treeSink name value [] = (.ok (), document)) :
    document.names =
        ((Member.leavesAll members).filter fun leaf => !leaf.leftOut value).map Leaf.name ∧
      document.names.Nodup ∧
      (∀ leaf ∈ Member.leavesAll members, ∃ inner alone, value.get? leaf.path = some inner ∧
        schema.writeNamed leaf.type inner leaf.name [] = (.ok (), alone) ∧
          document.get? leaf.name = alone.get? leaf.name) ∧
      ∀ member ∈ members, ∃ alone,
        schema.writeMember treeSink (schema.writeStructure treeSink value.depth) value member [] =
          (.ok (), alone) ∧ ∀ output ∈ member.outputs, document.get? output = alone.get? output := by
  have leaves := leaves_declared declared
  have distinct := leaves_distinct sound name
  obtain ⟨nodes, held⟩ := leaf_nodes sound typed fun leaf inside inner found =>
    written_as sound leaf.type inner (leads_found (leaf_leads sound inside).2 typed found)
      (leaves_write sound declared (congrArg Prod.fst ok) leaf inside inner found)
  rw [leaves] at distinct held
  rw [Member.leaves_all_names] at distinct
  have positive := value.depth_positive
  -- Members are written one level below their structure, and on the structure's own when alone.
  have written (levels : Nat) (enough : value.depth ≤ levels + 1) :
      ∀ leaf ∈ Member.leavesAll members, Held schema.Written levels value leaf (nodes leaf.name) := by
    intro leaf inside
    obtain ⟨inner, found, below, written⟩ := held leaf inside
    exact ⟨inner, found, by omega, written.written⟩
  obtain ⟨levels, enough⟩ := Nat.exists_eq_add_one_of_ne_zero (by omega : value.depth ≠ 0)
  rw [writeObject, enough, writeStructure, declared] at ok
  dsimp only at ok
  rw [members_written members (written levels enough.le)] at ok
  obtain rfl : Fields.leaveAll nodes (Member.outputsAll members) [] = document :=
    congrArg Prod.snd ok
  have names := Fields.names_leave_all nodes distinct
  refine ⟨?_, ?_, ?_, ?_⟩
  · rw [names, ← Member.leaves_all_names, List.filter_map]
    congr 1
    apply List.filter_congr
    intro leaf inside
    obtain ⟨inner, found, -, written⟩ := held leaf inside
    rw [Function.comp_apply, Leaf.leftOut, found, Option.any_some]
    cases shown : nodes leaf.name with
    | none => rw [written.empty.mp shown]; rfl
    | some node =>
        have filled : nodes leaf.name ≠ none := by simp [shown]
        rw [Bool.eq_false_iff.mpr (mt written.empty.mpr filled)]
        rfl
  · rw [names]
    exact distinct.filter _
  · intro leaf inside
    obtain ⟨inner, found, -, written⟩ := held leaf inside
    refine ⟨inner, _, found, written.written inner.depth le_rfl (Fields.place leaf.name) [], ?_⟩
    rw [Fields.get_leave_all, Fields.get_leave, if_pos rfl, if_pos]
    rw [← Member.leaves_all_names]
    exact List.mem_map_of_mem inside
  · intro member inside
    have among := Member.leaves_among inside
    refine ⟨_, member_written member
      (fun leaf leafInside => written value.depth (Nat.le_succ _) leaf (among leafInside)) [], ?_⟩
    intro output outputInside
    rw [Fields.get_leave_all, Fields.get_leave_all, if_pos outputInside, if_pos]
    rw [← Member.leaves_names] at outputInside
    rw [← Member.leaves_all_names]
    exact List.map_subset _ among outputInside

end Schema

theorem Journey.trip_written :
    Journey.schema.writeObject treeSink "Trip" (Journey.tripValue "Delphi" .absent 3) [] =
      (.ok (), [("name", .text "Delphi"), ("days", .uint 3)]) := by
  have declared : (schema.structureInfo "Trip").members = .ok tripMembers := rfl
  have depth : (tripValue "Delphi" .absent 3).depth = 4 := rfl
  rw [Schema.writeObject, depth, Schema.writeStructure, declared]
  simp only [tripMembers, number, Schema.writeMembers, Schema.writeMember, Schema.writeAt]
  rfl

/-- The document of a trip on which no minutes are counted, and what the visit in it writes. -/
theorem Schema.members_written_apart_trip :
    let trip := Journey.tripValue "Delphi" .absent 3
    let document : Fields := [("name", .text "Delphi"), ("days", .uint 3)]
    Journey.schema.Sound ∧
      (Journey.schema.structureInfo "Trip").members = .ok Journey.tripMembers ∧
      Journey.schema.HasType (.record "Trip") trip ∧
      Journey.schema.writeObject treeSink "Trip" trip [] = (.ok (), document) ∧
      (Member.leavesAll Journey.tripMembers).map Leaf.name = ["name", "minutes", "days"] ∧
      document.names =
        ((Member.leavesAll Journey.tripMembers).filter fun leaf => !leaf.leftOut trip).map Leaf.name ∧
      ∀ member ∈ Journey.tripMembers, ∃ alone,
        Journey.schema.writeMember treeSink (Journey.schema.writeStructure treeSink trip.depth) trip
          member [] = (.ok (), alone) ∧
            ∀ output ∈ member.outputs, document.get? output = alone.get? output := by
  intro trip document
  have declared : (Journey.schema.structureInfo "Trip").members = .ok Journey.tripMembers := rfl
  have typed : Journey.schema.HasType (.record "Trip") trip :=
    Journey.trip_typed "Delphi" .absent (by decide)
  obtain ⟨names, -, -, alone⟩ :=
    members_written_apart Journey.sound declared typed Journey.trip_written
  exact ⟨Journey.sound, declared, typed, Journey.trip_written, rfl, names, alone⟩

end Marshal
