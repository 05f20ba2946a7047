import Marshal.Proofs.Reading.Again
import Marshal.Proofs.RoundTrip.Success

/-!
# Whatever has been written can be read

Whatever type a value is of, reading what its writing has left succeeds. What is read need not be
the value: an optional without content is left out, and with it whatever goes by its name.
-/

namespace Marshal

/-- Whether nothing is written of a value: of an optional that is absent, or that has nothing but
such a value in it. -/
def Ty.leavesOut : Ty → Val → Bool
  | .option inner, .present content => leavesOut inner content
  | .option _, _ => true
  | .boxed inner, value => leavesOut inner value
  | _, _ => false

theorem Ty.leaves_out_required {type : Ty} (required : type.isOptional = false) (value : Val) :
    type.leavesOut value = false := by
  cases type with
  | option inner => cases required
  | boxed inner =>
      have inside : inner.isOptional = false := required
      exact leaves_out_required inside value
  | _ => rfl

/-- What is related to one list element by element can be followed further. -/
theorem forall₂_further {Source Middle Target : Type} {related : Source → Middle → Prop}
    (first : Source → Target → Prop) (second : Middle → Target → Prop)
    (further : ∀ source middle, related source middle →
      ∃ target, first source target ∧ second middle target)
    {sources : List Source} {middles : List Middle} (both : List.Forall₂ related sources middles) :
    ∃ targets, List.Forall₂ first sources targets ∧ List.Forall₂ second middles targets := by
  induction both with
  | nil => exact ⟨[], .nil, .nil⟩
  | cons own _ induction =>
      obtain ⟨target, left, right⟩ := further _ _ own
      obtain ⟨targets, lefts, rights⟩ := induction
      exact ⟨target :: targets, .cons left lefts, .cons right rights⟩

namespace Step

variable {State Item : Type}

/-- Steps that change nothing can be left out. -/
theorem all_filter {step : Item → Step State} (needed : Item → Bool) {items : List Item}
    (idle : ∀ item ∈ items, needed item = false → ∀ state, step item state = (.ok (), state)) :
    all (items.map step) = all ((items.filter needed).map step) := by
  induction items with
  | nil => rfl
  | cons item rest induction =>
      rw [List.forall_mem_cons] at idle
      have others : all (rest.map step) = all ((rest.filter needed).map step) := induction idle.2
      funext state
      cases own : needed item with
      | true =>
          rw [List.filter_cons_of_pos own]
          exact congrFun (congrArg (andThen (step item)) others) state
      | false =>
          rw [List.filter_cons_of_neg (by simp [own]), ← others]
          have skipped := idle.1 own state
          change andThen (step item) (all (rest.map step)) state = _
          rw [andThen, skipped]

end Step

theorem Val.depth_entries_filter (entries : List (Val × Val)) (needed : Val × Val → Bool) :
    depthEntries (entries.filter needed) ≤ depthEntries entries := by
  induction entries with
  | nil => exact le_rfl
  | cons entry rest induction =>
      rw [List.filter_cons, depthEntries]
      split_ifs
      · rw [depthEntries]
        exact max_le_max le_rfl induction
      · exact induction.trans (Nat.le_max_right _ _)

namespace Schema

variable {schema : Schema}

/-- That what a node shows is read into any value of a type's shape, and makes one of it again. -/
def Accepts (schema : Schema) (type : Ty) (node? : Option Node) : Prop :=
  ∀ target, schema.Shaped type target →
    ∃ result, schema.Shaped type result ∧ schema.Reread type node? target result

/-- That a value is written as a node which can be read, and what shows of it if it is left out. -/
structure Arrives (schema : Schema) (type : Ty) (value : Val) (node? : Option Node) : Prop where
  written : schema.Written type value node?
  solid : node? ≠ some .null
  empty : node? = none ↔ type.leavesOut value = true
  read : schema.Accepts type node?

/-- That the field names of all keys in a type lead back to the keys that they are given to. -/
def NamesReadBack (schema : Schema) (type : Ty) : Prop :=
  ∀ kind key value naming, schema.Part type (.map kind key value) →
    schema.keyNaming? key = some naming →
      ∀ text name, naming.toName? text = some name → naming.ofName? name = some text

theorem NamesReadBack.direct {type part : Ty} (names : schema.NamesReadBack type)
    (direct : schema.Direct type part) : schema.NamesReadBack part :=
  fun kind key value naming inside => names kind key value naming (.head direct inside)

theorem default_shaped (sound : schema.Sound) (type : Ty) :
    schema.Shaped type (schema.default type) := has_type_shaped (default_typed sound type)

theorem Reread.fresh {type : Ty} (replaced : type.isReplaced = true) {node? : Option Node}
    {target result : Val} (reread : schema.Reread type node? target result) (other : Val) :
    schema.Reread type node? other result := by
  intro deeper deep State place state shows
  have yields := reread deeper deep place state shows
  have same := (read_at_fresh deeper type replaced place.inlet state target other).2 yields.outcome
  dsimp only at same
  rwa [same]

theorem accepts_replaced {type : Ty} (replaced : type.isReplaced = true) {node? : Option Node}
    {target result : Val} (reread : schema.Reread type node? target result) :
    schema.Accepts type node? :=
  fun other _ => ⟨result, .replaced replaced, reread.fresh replaced other⟩

theorem Carries.arrives (sound : schema.Sound) {type : Ty} (replaced : type.isReplaced = true)
    (required : type.isOptional = false) {value : Val}
    (carried : ∃ node?, schema.Carries type value node?) :
    ∃ node?, schema.Arrives type value node? := by
  obtain ⟨node?, carries⟩ := carried
  obtain ⟨result, -, reread⟩ := carries.read _ (default_typed sound type)
  have filled := carries.filled required
  refine ⟨node?, carries.written, carries.solid, ?_, accepts_replaced replaced reread⟩
  simp [filled, Ty.leaves_out_required required]

theorem present_arrives (sound : schema.Sound) {inner : Ty} {value : Val}
    (content : ∃ node?, schema.Arrives inner value node?) :
    ∃ node?, schema.Arrives (.option inner) (.present value) node? := by
  obtain ⟨node?, arrives⟩ := content
  refine ⟨node?, arrives.written.present, arrives.solid, arrives.empty, ?_⟩
  cases node? with
  | none => exact accepts_replaced rfl (absent_reread inner .absent)
  | some node =>
      obtain ⟨result, -, reread⟩ := arrives.read _ (default_shaped sound inner)
      exact accepts_replaced rfl (present_reread arrives.solid reread .absent)

theorem boxed_arrives {inner : Ty} {value : Val}
    (content : ∃ node?, schema.Arrives inner value node?) :
    ∃ node?, schema.Arrives (.boxed inner) value node? := by
  obtain ⟨node?, arrives⟩ := content
  refine ⟨node?, arrives.written.boxed, arrives.solid, arrives.empty, ?_⟩
  intro target shaped
  obtain ⟨result, resultShaped, reread⟩ := arrives.read target (shaped_boxed.mp shaped)
  exact ⟨result, shaped_boxed.mpr resultShaped, reread.boxed⟩

theorem sequence_arrives (sound : schema.Sound) {kind : SequenceKind} {item : Ty} {values : List Val}
    (each : ∀ value ∈ values, ∃ node?, schema.Arrives item value node?) :
    ∃ node?, schema.Arrives (.sequence kind item) (.list values) node? := by
  obtain ⟨nodes, arrive⟩ := exists_forall₂ each
  obtain ⟨results, -, rereads⟩ := forall₂_further (fun _ _ => True)
    (fun node? result => schema.Reread item node? (schema.default item) result)
    (fun value node? arrives => by
      obtain ⟨result, -, reread⟩ := arrives.read _ (default_shaped sound item)
      exact ⟨result, trivial, reread⟩) arrive
  exact ⟨_, sequence_written (arrive.imp fun _ _ => Arrives.written), by simp, by simp [Ty.leavesOut],
    accepts_replaced rfl (sequence_reread rereads (.list []))⟩

theorem shaped_tuple_cons {type : Ty} {types : List Ty} {value : Val} {values : List Val}
    (first : schema.Shaped type value) (others : schema.Shaped (.tuple types) (.tuple values)) :
    schema.Shaped (.tuple (type :: types)) (.tuple (value :: values)) := by
  cases others with
  | replaced replaced => cases replaced
  | tuple size shaped =>
      apply Shaped.tuple (by rw [List.length_cons, List.length_cons, size])
      intro position other inner known found
      cases position with
      | zero =>
          cases known
          cases found
          exact first
      | succ position => exact shaped position other inner known found

theorem slots_accept {types : List Ty} {values targets : List Val} {nodes : List (Option Node)}
    (size : values.length = types.length)
    (arrive : List.Forall₂ (fun slot node? => schema.Arrives slot.1 slot.2 node?)
      (types.zip values) nodes) (shaped : schema.Shaped (.tuple types) (.tuple targets)) :
    ∃ results, schema.Shaped (.tuple types) (.tuple results) ∧
      schema.RereadSlots types nodes targets results := by
  induction types generalizing values targets nodes with
  | nil =>
      obtain rfl := List.length_eq_zero_iff.mp size
      cases arrive
      cases shaped with
      | replaced replaced => cases replaced
      | tuple none _ =>
          obtain rfl := List.length_eq_zero_iff.mp none
          exact ⟨[], .tuple rfl (by simp), .nil⟩
  | cons type types induction =>
      cases values with
      | nil => cases size
      | cons value values =>
          obtain ⟨target, targets, rfl, targetShaped, others⟩ := shaped_slots shaped
          rw [List.zip_cons_cons, List.forall₂_cons_left_iff] at arrive
          obtain ⟨node?, nodes, first, further, rfl⟩ := arrive
          obtain ⟨result, resultShaped, reread⟩ := first.read target targetShaped
          obtain ⟨results, resultsShaped, rereads⟩ :=
            induction (Nat.succ.inj size) further others
          exact ⟨result :: results, shaped_tuple_cons resultShaped resultsShaped,
            .cons reread rereads⟩

theorem tuple_arrives {types : List Ty} {values : List Val} (size : values.length = types.length)
    (each : ∀ slot ∈ types.zip values, ∃ node?, schema.Arrives slot.1 slot.2 node?) :
    ∃ node?, schema.Arrives (.tuple types) (.tuple values) node? := by
  obtain ⟨nodes, arrive⟩ := exists_forall₂ each
  refine ⟨_, tuple_written (arrive.imp fun _ _ => Arrives.written), by simp,
    by simp [Ty.leavesOut], ?_⟩
  intro target shaped
  cases shaped with
  | replaced replaced => cases replaced
  | tuple targetSize shaped =>
      obtain ⟨results, resultsShaped, rereads⟩ := slots_accept size arrive (.tuple targetSize shaped)
      exact ⟨.tuple results, resultsShaped, tuple_reread rereads⟩

section Maps

variable {kind : MapKind} {keyType valueType : Ty} {entries : List (Val × Val)}

theorem record_map_arrives (sound : schema.Sound) (unnamed : schema.keyNaming? keyType = none)
    (each : ∀ entry ∈ entries, (∃ node?, schema.Arrives keyType entry.1 node?) ∧
      ∃ node?, schema.Arrives valueType entry.2 node?) :
    ∃ node?, schema.Arrives (.map kind keyType valueType) (.map entries) node? := by
  obtain ⟨nodes, arrive⟩ : ∃ nodes : List (Option Node × Option Node),
      List.Forall₂ (fun entry nodes => schema.Arrives keyType entry.1 nodes.1 ∧
        schema.Arrives valueType entry.2 nodes.2) entries nodes := by
    apply exists_forall₂
    intro entry inside
    obtain ⟨⟨key, keyArrives⟩, ⟨value, valueArrives⟩⟩ := each entry inside
    exact ⟨(key, value), keyArrives, valueArrives⟩
  obtain ⟨results, -, rereads⟩ := forall₂_further (fun _ _ => True)
    (fun nodes (result : Val × Val) =>
      schema.Reread keyType nodes.1 (schema.default keyType) result.1 ∧
        schema.Reread valueType nodes.2 (schema.default valueType) result.2)
    (fun entry nodes arrives => by
      obtain ⟨key, -, keyReread⟩ := arrives.1.read _ (default_shaped sound keyType)
      obtain ⟨value, -, valueReread⟩ := arrives.2.read _ (default_shaped sound valueType)
      exact ⟨(key, value), trivial, keyReread, valueReread⟩) arrive
  have written := arrive.imp fun _ _ both => And.intro both.1.written both.2.written
  exact ⟨_, record_map_written unnamed written, by simp [recordArray],
    by simp [recordArray, Ty.leavesOut],
    accepts_replaced rfl (record_map_reread kind unnamed rereads (.map []))⟩

variable {naming : KeyNaming}

/-- Entries whose values are left out leave no field. -/
theorem named_map_keeps (named : schema.keyNaming? keyType = some naming)
    (toNames : ∀ entry ∈ entries, ∃ name, naming.toName? entry.1.asText = some name)
    (each : ∀ entry ∈ entries, ∃ node?, schema.Arrives valueType entry.2 node?) {fields : Fields}
    (written : List.Forall₂ (fun entry field => naming.toName? entry.1.asText = some field.1 ∧
      schema.Written valueType entry.2 (some field.2))
      (entries.filter fun entry => !valueType.leavesOut entry.2) fields)
    (distinct : (fields.map Prod.fst).Nodup) :
    schema.Written (.map kind keyType valueType) (.map entries) (some (.struct fields)) := by
  intro levels enough State place state
  have kept := Val.depth_entries_filter entries fun entry => !valueType.leavesOut entry.2
  rw [Val.depth] at enough
  rw [writeAt, named]
  dsimp only
  rw [place.struct_eq, Val.entries, Step.all_filter fun entry => !valueType.leavesOut entry.2]
  · exact congrArg (fun written => (written.1, place.leave (some (.struct written.2)) state))
      (named_written keyType (kept.trans (Nat.le_of_succ_le enough)) written [] distinct)
  · intro entry inside leftOut fields
    obtain ⟨name, toName⟩ := toNames entry inside
    obtain ⟨node?, arrives⟩ := each entry inside
    obtain rfl : node? = none := arrives.empty.mpr (by simpa using leftOut)
    have shallow := (Val.depth_entry inside).2.trans (Nat.le_of_succ_le enough)
    have skipped := arrives.written levels shallow (Fields.place name) fields
    have place : treeSink.field name = (Fields.place name).outlet := rfl
    rw [toName]
    dsimp only
    rw [place, Step.inField, Step.mapFault, skipped]
    rfl

/-- What stands for an entry that is not left out: a field that is named by the key. -/
structure KeptField (schema : Schema) (naming : KeyNaming) (valueType : Ty) (entry : Val × Val)
    (field : String × Node) : Prop where
  name : naming.toName? entry.1.asText = some field.1
  key : ∃ text, entry.1 = .text text
  node : schema.Arrives valueType entry.2 (some field.2)

theorem kept_fields (texts : ∀ entry ∈ entries, ∃ text, entry.1 = .text text)
    (toNames : ∀ entry ∈ entries, ∃ name, naming.toName? entry.1.asText = some name)
    (each : ∀ entry ∈ entries, ∃ node?, schema.Arrives valueType entry.2 node?) :
    ∃ fields : Fields, List.Forall₂ (schema.KeptField naming valueType)
      (entries.filter fun entry => !valueType.leavesOut entry.2) fields := by
  apply exists_forall₂
  intro entry inside
  obtain ⟨inside, kept⟩ := List.mem_filter.mp inside
  obtain ⟨name, toName⟩ := toNames entry inside
  obtain ⟨node?, arrives⟩ := each entry inside
  have present : node? ≠ none := fun absent => by simp [arrives.empty.mp absent] at kept
  obtain ⟨node, rfl⟩ := Option.ne_none_iff_exists'.mp present
  exact ⟨(name, node), toName, texts entry inside, arrives⟩

/-- A field leads back to the key of its entry, and to a value of the entry's type. -/
theorem kept_fields_read (sound : schema.Sound)
    (back : ∀ text name, naming.toName? text = some name → naming.ofName? name = some text)
    {fields : Fields} (kept : List.Forall₂ (schema.KeptField naming valueType) entries fields) :
    ∃ results, results.map Prod.fst = entries.map Prod.fst ∧
      List.Forall₂ (fun field result =>
        (∃ text, naming.ofName? field.1 = some text ∧ result.1 = .text text) ∧
          schema.Reread valueType (some field.2) (schema.default valueType) result.2)
        fields results := by
  induction kept with
  | nil => exact ⟨[], rfl, .nil⟩
  | @cons entry field _ _ first _ induction =>
      obtain ⟨name, ⟨text, key⟩, arrives⟩ := first
      obtain ⟨results, keys, rereads⟩ := induction
      obtain ⟨value, -, reread⟩ := arrives.read _ (default_shaped sound valueType)
      rw [key, Val.asText] at name
      refine ⟨(entry.1, value) :: results, ?_,
        .cons ⟨⟨text, back text field.1 name, key⟩, reread⟩ rereads⟩
      rw [List.map_cons, List.map_cons, keys]

/-- What is written of a map whose keys stand as field names is read as a map again, which has the
keys of all entries that are not left out. -/
theorem named_map_read_back (sound : schema.Sound)
    (typed : schema.HasType (.map kind keyType valueType) (.map entries))
    (named : schema.keyNaming? keyType = some naming)
    (back : ∀ text name, naming.toName? text = some name → naming.ofName? name = some text)
    (toNames : ∀ entry ∈ entries, ∃ name, naming.toName? entry.1.asText = some name)
    (each : ∀ entry ∈ entries, ∃ node?, schema.Arrives valueType entry.2 node?) :
    ∃ fields results,
      schema.Written (.map kind keyType valueType) (.map entries) (some (.struct fields)) ∧
        results.map Prod.fst =
          (entries.filter fun entry => !valueType.leavesOut entry.2).map Prod.fst ∧
        ∀ target, schema.Reread (.map kind keyType valueType) (some (.struct fields)) target
          (.map results) := by
  rcases typed with _ | _ | _ | _ | _ | _ | _ | _ | _ | _ | _ | ⟨keys, -, -, sorted⟩
  have texts : ∀ entry ∈ entries, ∃ text, entry.1 = .text text :=
    fun entry inside => named_key keyType named (keys entry inside)
  obtain ⟨fields, kept⟩ := kept_fields texts toNames each
  obtain ⟨results, sameKeys, rereads⟩ := kept_fields_read sound back kept
  have keptSorted := sorted.filter fun entry => !valueType.leavesOut entry.2
  have distinct : (fields.map Prod.fst).Nodup :=
    entry_fields_distinct (fun entry inside => texts entry (List.mem_filter.mp inside).1) keptSorted
      (kept.imp fun _ _ field => back _ _ field.name)
  have written := kept.imp fun _ _ field => And.intro field.name field.node.written
  refine ⟨fields, results, named_map_keeps named toNames each written distinct, sameKeys, ?_⟩
  intro target
  have reread := named_map_reread kind named rereads distinct target
  rwa [Val.entries_rebuilt (sorted_results keptSorted sameKeys)] at reread

theorem named_map_arrives (sound : schema.Sound)
    (typed : schema.HasType (.map kind keyType valueType) (.map entries))
    (named : schema.keyNaming? keyType = some naming)
    (back : ∀ text name, naming.toName? text = some name → naming.ofName? name = some text)
    (toNames : ∀ entry ∈ entries, ∃ name, naming.toName? entry.1.asText = some name)
    (each : ∀ entry ∈ entries, ∃ node?, schema.Arrives valueType entry.2 node?) :
    ∃ node?, schema.Arrives (.map kind keyType valueType) (.map entries) node? := by
  obtain ⟨fields, results, written, -, reread⟩ :=
    named_map_read_back sound typed named back toNames each
  exact ⟨_, written, by simp, by simp [Ty.leavesOut], accepts_replaced rfl (reread (.map []))⟩

end Maps

section Structures

variable {nodes : String → Option Node}

mutual

theorem member_accepts (sound : schema.Sound) {name : String} {target : Val} (member : Member)
    (reaches : schema.MemberSound name member) (shaped : schema.Shaped (.record name) target)
    (accepts : ∀ leaf ∈ member.leaves, schema.Accepts leaf.type (nodes leaf.name))
    (distinct : member.outputs.Nodup) :
    ∃ result, schema.Shaped (.record name) result ∧
      schema.Refills nodes member.outputs
        (fun deeper fields => schema.readMember deeper target fields member) result := by
  cases member with
  | field head type =>
      obtain ⟨-, leads⟩ := reaches
      have partShaped := member_value_shaped leads shaped (default_shaped sound type)
      obtain ⟨new, newShaped, reread⟩ := accepts _ List.mem_cons_self _ partShaped
      exact ⟨target.set head.path new, shaped_set sound.distinct leads shaped newShaped,
        field_refills reread⟩
  | extend head base members =>
      obtain ⟨-, leads, reaches⟩ := reaches
      have partShaped := member_value_shaped leads shaped (has_type_shaped (sound.initial base))
      have accepts : ∀ leaf ∈ Member.leavesAll members,
          schema.Accepts leaf.type (nodes leaf.name) :=
        fun leaf inside => accepts (leaf.beneath head.path) (List.mem_map_of_mem inside)
      obtain ⟨new, newShaped, refills⟩ :=
        members_accept sound members reaches partShaped accepts distinct
      exact ⟨target.set head.path new, shaped_set sound.distinct leads shaped newShaped,
        extend_refills refills⟩

theorem members_accept (sound : schema.Sound) {name : String} {target : Val} (members : List Member)
    (reaches : schema.MembersSound name members) (shaped : schema.Shaped (.record name) target)
    (accepts : ∀ leaf ∈ Member.leavesAll members, schema.Accepts leaf.type (nodes leaf.name))
    (distinct : (Member.outputsAll members).Nodup) :
    ∃ result, schema.Shaped (.record name) result ∧
      schema.Refills nodes (Member.outputsAll members)
        (fun deeper fields => schema.readMembers deeper target fields members) result := by
  cases members with
  | nil => exact ⟨target, shaped, nil_refills target⟩
  | cons member rest =>
      rw [Member.leavesAll, List.forall_mem_append] at accepts
      rw [Member.outputsAll, List.nodup_append] at distinct
      obtain ⟨own, others, apart⟩ := distinct
      obtain ⟨middle, middleShaped, firstRefills⟩ :=
        member_accepts sound member reaches.1 shaped accepts.1 own
      obtain ⟨result, resultShaped, restRefills⟩ :=
        members_accept sound rest reaches.2 middleShaped accepts.2 others
      exact ⟨result, resultShaped,
        cons_refills (fun output inside outside => apart output outside output inside rfl)
          firstRefills restRefills⟩

end

theorem record_arrives (sound : schema.Sound) {name : String} {value : Val}
    (typed : schema.HasType (.record name) value)
    (declared : ∃ members, (schema.structureInfo name).members = .ok members)
    (each : ∀ leaf ∈ schema.leaves name, ∀ inner, value.get? leaf.path = some inner →
      ∃ node?, schema.Arrives leaf.type inner node?) :
    ∃ node?, schema.Arrives (.record name) value node? := by
  obtain ⟨members, declared⟩ := declared
  have leaves := leaves_declared declared
  have distinct := leaves_distinct sound name
  obtain ⟨nodes, held⟩ : ∃ nodes : String → Option Node, ∀ leaf ∈ schema.leaves name,
      ∃ inner, value.get? leaf.path = some inner ∧
        schema.Arrives leaf.type inner (nodes leaf.name) := by
    apply nodes_by_name (fun leaf node? => ∃ inner, value.get? leaf.path = some inner ∧
      schema.Arrives leaf.type inner node?) distinct
    intro leaf inside
    obtain ⟨inner, found, -⟩ := leads_get (leaf_leads sound inside).2 typed
    obtain ⟨node?, arrives⟩ := each leaf inside inner found
    exact ⟨node?, inner, found, arrives⟩
  have written : schema.Written (.record name) value (some (memberStruct nodes members)) := by
    apply structure_written declared
    intro levels enough leaf inside
    rw [← leaves] at inside
    obtain ⟨inner, found, arrives⟩ := held leaf inside
    have below := leaf_below sound inside found
    exact ⟨inner, found, by omega, arrives.written⟩
  rw [leaves, Member.leaves_all_names] at distinct
  refine ⟨_, written, by simp [memberStruct], by simp [Ty.leavesOut], ?_⟩
  intro target shaped
  obtain ⟨result, resultShaped, refills⟩ := members_accept sound members
    (members_sound sound declared) shaped (fun leaf inside => by
      obtain ⟨inner, found, arrives⟩ := held leaf (leaves ▸ inside)
      exact arrives.read) distinct
  exact ⟨result, resultShaped, structure_reread declared refills⟩

end Structures

theorem absent_arrives (inner : Ty) : ∃ node?, schema.Arrives (.option inner) .absent node? :=
  ⟨none, absent_written inner, by simp, by simp [Ty.leavesOut],
    accepts_replaced rfl (absent_reread inner .absent)⟩

/-- Whatever has been written can be read, as long as the names of keys lead back to them. The value
becomes less deep from a structure or a container to its parts, and the type smaller at a box. -/
theorem arrives (sound : schema.Sound) (type : Ty) (value : Val) (typed : schema.HasType type value)
    (names : schema.NamesReadBack type) (writes : schema.Writes type value) :
    ∃ node?, schema.Arrives type value node? := by
  cases typed with
  | bool flag => exact Carries.arrives sound rfl rfl (bool_carries flag)
  | int fits => exact Carries.arrives sound rfl rfl (int_carries fits)
  | single number => exact Carries.arrives sound rfl rfl (single_carries number)
  | double number => exact Carries.arrives sound rfl rfl (double_carries number)
  | string text => exact Carries.arrives sound rfl rfl (string_carries text)
  | textual text => exact Carries.arrives sound rfl rfl (textual_carries _ text)
  | enumeration code =>
      exact Carries.arrives sound rfl rfl (enumeration_carries sound (writes_mapped sound writes))
  | @record name fields known typed =>
      have typed := HasType.record known typed
      apply record_arrives sound typed (writes_declared writes)
      intro leaf inside inner found
      have innerTyped := leads_found (leaf_leads sound inside).2 typed found
      have below := leaf_below sound inside found
      exact arrives sound leaf.type inner innerTyped (names.direct (.member inside))
        (writes_inside sound (.member inside found) writes)
  | absent => exact absent_arrives _
  | @present inner content typed =>
      have below : content.depth < (Val.present content).depth := Nat.lt_succ_self _
      exact present_arrives sound (arrives sound inner content typed (names.direct .content)
        (writes_inside sound .content writes))
  | @sequence kind item items typed =>
      apply sequence_arrives sound
      intro element inside
      have below : element.depth < (Val.list items).depth :=
        Nat.lt_succ_of_le (Val.depth_item inside)
      exact arrives sound item element (typed element inside) (names.direct .item)
        (writes_inside sound (.item inside) writes)
  | @map kind keyType valueType entries keys comparable values sorted =>
      have typed : schema.HasType (.map kind keyType valueType) (.map entries) :=
        .map keys comparable values sorted
      have values : ∀ entry ∈ entries, ∃ node?, schema.Arrives valueType entry.2 node? := by
        intro entry inside
        have below : entry.2.depth < (Val.map entries).depth :=
          Nat.lt_succ_of_le (Val.depth_entry inside).2
        exact arrives sound valueType entry.2 (values entry inside) (names.direct .value)
          (writes_inside sound (.value inside) writes)
      cases naming : schema.keyNaming? keyType with
      | some found =>
          exact named_map_arrives sound typed naming
            (names kind keyType valueType found .refl naming)
            (fun entry inside => entry_named writes naming inside) values
      | none =>
          apply record_map_arrives sound naming
          intro entry inside
          have below : entry.1.depth < (Val.map entries).depth :=
            Nat.lt_succ_of_le (Val.depth_entry inside).1
          have key := arrives sound keyType entry.1 (keys entry inside) (names.direct .key)
            (writes_inside sound (.key inside) writes)
          exact ⟨key, values entry inside⟩
  | @tuple types slots typed =>
      apply tuple_arrives typed.length_eq.symm
      intro slot inside
      obtain ⟨typeInside, slotInside⟩ := List.of_mem_zip inside
      have below : slot.2.depth < (Val.tuple slots).depth :=
        Nat.lt_succ_of_le (Val.depth_item slotInside)
      exact arrives sound slot.1 slot.2 ((List.forall₂_iff_zip.mp typed).2 inside)
        (names.direct (.slot typeInside)) (writes_inside sound (.slot inside) writes)
  | @boxed inner value typed =>
      exact boxed_arrives (arrives sound inner value typed (names.direct .boxed)
        (writes_inside sound .boxed writes))
termination_by (value.depth, sizeOf type)
decreasing_by
  all_goals subst_vars
  all_goals simp only [Prod.lex_def, Ty.boxed.sizeOf_spec, true_and]
  all_goals omega

end Schema

end Marshal
