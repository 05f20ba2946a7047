import Marshal.Proofs.Reading.Concurring
import Marshal.Proofs.Reading.Targets
import Marshal.Proofs.Reading.Views
import Marshal.Proofs.RoundTrip.Keys

/-!
# The order of fields, and fields that nobody asks for

Fields are found by their names, and what is not asked for is never looked at. So documents that differ
only in the order of fields, and in fields that are not declared where they stand, are read alike. An
optional hides a fault in one of them only where it hides one in the other too, and maps, which ask
for the names that are there, are put in the order of their keys.
-/

namespace Marshal

namespace Schema

variable {schema : Schema} {type : Ty} {view inner : View}

section Nodes

/-- Reading a node as a type, wherever it stands. -/
def readNode (schema : Schema) (type : Ty) (node : Node) : Step Val :=
  schema.fill type Slots.inlet ⟨[node], 0⟩

theorem read_node_eq (schema : Schema) (type : Ty) (node : Node) (target : Val) :
    schema.readNode type node target =
      (schema.readAt schema.readObject type target Slots.inlet ⟨[node], 0⟩).made := rfl

/-- Reading a node as a record of a key and a value. -/
def readEntry (schema : Schema) (key value : Ty) (node : Node) :
    Except Fault Unit × (Val × Val) :=
  (readRecord (schema.readNamed key (schema.default key) keyField)
    (schema.readNamed value (schema.default value) valueField) ⟨[node], 0⟩).made

def ReadsConcur (schema : Schema) : View → Node → Node → Prop
  | .value type, left, right => ∀ target, schema.Formed type target →
      Concur (schema.readNode type left target) (schema.readNode type right target)
  | .entry key value, left, right =>
      Concur (schema.readEntry key value left) (schema.readEntry key value right)
  | .unread, _, _ => True

/-- That two nodes are null or not alike, and are read alike. -/
structure NodesConcur (schema : Schema) (view : View) (left right : Node) : Prop where
  null : left = .null ↔ right = .null
  reads : schema.ReadsConcur view left right

variable {left right further : Node}

theorem NodesConcur.refl (view : View) (node : Node) : schema.NodesConcur view node node where
  null := .rfl
  reads := by
    cases view with
    | value type => exact fun target _ => .refl _
    | entry key value => exact .refl _
    | unread => trivial

theorem NodesConcur.symm (concur : schema.NodesConcur view left right) :
    schema.NodesConcur view right left where
  null := concur.null.symm
  reads := by
    obtain ⟨-, reads⟩ := concur
    cases view with
    | value type => exact fun target formed => (reads target formed).symm
    | entry key value => exact Concur.symm reads
    | unread => trivial

theorem NodesConcur.trans (concur : schema.NodesConcur view left right)
    (next : schema.NodesConcur view right further) : schema.NodesConcur view left further where
  null := concur.null.trans next.null
  reads := by
    obtain ⟨-, reads⟩ := concur
    obtain ⟨-, others⟩ := next
    cases view with
    | value type => exact fun target formed => (reads target formed).trans (others target formed)
    | entry key value => exact Concur.trans reads others
    | unread => trivial

theorem fill_named (schema : Schema) (type : Ty) {name : String} {fields : Fields} {node : Node}
    (found : fields.get? name = some node) :
    schema.fill type (Fields.inlet name) fields = schema.readNode type node := by
  funext target
  have shows : (Fields.place name).Shows fields (some node) := found
  have alone : Slots.place.Shows ⟨[node], 0⟩ (some node) := rfl
  exact (read_at_same schema.readObject type target (Fields.place_passable name) Slots.place_passable
    shows alone).made_eq

theorem fill_next (schema : Schema) (type : Ty) {slots : Slots} {node : Node}
    (current : slots.current? = some node) :
    schema.fill type Slots.inlet slots = schema.readNode type node := by
  funext target
  have alone : (Slots.mk [node] 0).current? = some node := rfl
  exact schema.next_same type target current alone

/-- Two fields that are both missing, or hold nodes that are read alike, are read alike. -/
theorem named_concur {name : String} {left right : Fields}
    (related : Option.Rel (schema.NodesConcur (.value type)) (left.get? name) (right.get? name))
    {target : Val} (formed : schema.Formed type target) :
    Concur (schema.readNamed type target name left).made
      (schema.readNamed type target name right).made := by
  cases leftFound : left.get? name <;> cases rightFound : right.get? name <;>
    rw [leftFound, rightFound] at related
  case none.none => exact .of_eq (schema.named_same type target (leftFound.trans rightFound.symm))
  case none.some => cases related
  case some.none => cases related
  case some.some =>
    cases related with
    | some concur =>
        have leftRead := congrFun (schema.fill_named type leftFound) target
        have rightRead := congrFun (schema.fill_named type rightFound) target
        exact (Concur.of_eq leftRead).trans ((concur.reads target formed).trans
          (.of_eq rightRead.symm))

/-- A box adds nothing to what is in it. -/
theorem concur_boxed {content : Ty} (concur : schema.ReadsConcur (.value content) left right) :
    schema.ReadsConcur (.value (.boxed content)) left right := by
  have same (node : Node) : schema.readNode (.boxed content) node = schema.readNode content node := by
    funext target
    rw [read_node_eq, read_node_eq, readAt]
  intro target formed
  rw [same, same]
  exact concur target (formed_boxed.mp formed)

theorem optional_present {leftRead rightRead : Reading Val Slots}
    {leftContent rightContent : Reading Val Slots} (null : left = .null ↔ right = .null)
    (concur : Concur leftContent.made rightContent.made)
    (leftLenient : ReadsLeniently (some left) leftRead leftContent)
    (rightLenient : ReadsLeniently (some right) rightRead rightContent) {value : Val}
    (present : leftRead.target = .present value) : rightRead.target = .present value := by
  obtain ⟨⟨node, same, filled⟩, ok, rfl⟩ := (leftLenient.present value).mp present
  obtain rfl := Option.some.inj same
  refine (rightLenient.present _).mpr ⟨⟨right, rfl, fun empty => filled (null.mpr empty)⟩, ?_, ?_⟩
  · exact concur.succeed.mp ok
  · exact (concur.same ok).symm

/-- Optionals of two nodes hold the same, or both hold nothing. -/
theorem concur_optional (sound : schema.Sound) {content : Ty}
    (declared : schema.DeclaredThrough content) (null : left = .null ↔ right = .null)
    (concur : schema.ReadsConcur (.value content) left right) :
    schema.ReadsConcur (.value (.option content)) left right := by
  intro target _
  have contents := concur _ (default_formed sound content)
  have lenient (node : Node) : ReadsLeniently (some node)
      (schema.readNext (.option content) target ⟨[node], 0⟩)
      (schema.readNext content (schema.default content) ⟨[node], 0⟩) :=
    option_read declared target Slots.site_finds nofun (Slots.current_holds_iff ⟨[node], 0⟩)
  have leftRead := lenient left
  have rightRead := lenient right
  refine ⟨iff_of_true leftRead.succeeds rightRead.succeeds, fun _ => ?_⟩
  by_cases present : ∃ value,
      (schema.readNext (.option content) target ⟨[left], 0⟩).target = .present value
  · obtain ⟨value, held⟩ := present
    exact held.trans (optional_present null contents leftRead rightRead held).symm
  · refine (leftRead.absent present).trans (rightRead.absent ?_).symm
    rintro ⟨value, held⟩
    exact present ⟨value, optional_present null.symm contents.symm rightRead leftRead held⟩

end Nodes

section Structs

variable {left right : Fields}

/-- What is read of a struct's fields is read alike, and the same of them are there. -/
def FieldsConcur (schema : Schema) (view : View) (left right : Fields) : Prop :=
  ∀ name inner, schema.fieldView view name = some inner →
    Option.Rel (schema.NodesConcur inner) (left.get? name) (right.get? name)

theorem leaf_found (sound : schema.Sound) {owner : String} {leaf : Leaf}
    (inside : leaf ∈ schema.leaves owner) :
    schema.typeField (.record owner) leaf.name = some (.value leaf.type) := by
  have distinct := leaves_distinct sound owner
  rw [typeField]
  cases found : (schema.leaves owner).find? fun other => other.name = leaf.name with
  | none => exact absurd (List.find?_eq_none.mp found leaf inside) (by simp)
  | some other =>
      have same : other.name = leaf.name := by simpa using List.find?_some found
      rw [List.inj_on_of_nodup_map distinct (List.mem_of_find?_eq_some found) inside same]
      rfl

theorem read_node_struct (schema : Schema) (owner : String) (fields : Fields) (target : Val) :
    schema.readNode (.record owner) (.struct fields) target =
      (schema.readObject owner target fields).made := by
  rw [read_node_eq, readAt]
  rfl

/-- The plain members are read one after the other, each alike on both sides. -/
theorem structure_concurs (sound : schema.Sound) (assembled : schema.Assembled) {owner : String}
    (declared : schema.DeclaredThrough (.record owner))
    (fields : schema.FieldsConcur (.value (.record owner)) left right) {target : Val}
    (formed : schema.Formed (.record owner) target) :
    Concur (schema.readObject owner target left).made (schema.readObject owner target right).made := by
  obtain ⟨members, built⟩ := declared.members owner .refl
  rw [read_object_filled sound assembled built formed left,
    read_object_filled sound assembled built formed right, List.map_map, List.map_map]
  refine Step.all_concur (schema.Formed (.record owner)) ?_ ?_ formed
  · intro leaf inside whole wholeFormed
    have part := named_concur (fields leaf.name _ (leaf_found sound inside))
      (wholeFormed.filled (leaf_reaches sound inside) (schema.default leaf.type))
    apply Portion.filled_concur (schema.memberPortion left leaf) (schema.memberPortion right leaf) rfl
      rfl
    simp only [memberPortion, Step.inField, Step.map_fault_eq]
    exact part.map _ _ id
  · intro leaf inside whole result wholeFormed done
    have settles := read_settles sound assembled leaf.type (Fields.site_finds_inside leaf.name) left
    exact (member_settles sound inside settles).keeps (member_stays sound inside) wholeFormed done

theorem named_map_concurs (sound : schema.Sound) (assembled : schema.Assembled) {kind : MapKind}
    {key value : Ty} (texts : key.unboxed = .string)
    (related : ∀ name,
      Option.Rel (schema.NodesConcur (.value value)) (left.get? name) (right.get? name))
    (target : Val) :
    Concur (schema.readNode (.map kind key value) (.struct left) target)
      (schema.readNode (.map kind key value) (.struct right) target) := by
  have names (name : String) : name ∈ left.names ↔ name ∈ right.names := by
    rw [← Fields.get_some_iff, ← Fields.get_some_iff]
    have same := related name
    generalize left.get? name = first, right.get? name = second at same ⊢
    cases same <;> simp
  have entries := read_entries_concur assembled key.name names fun name _ =>
    named_concur (related name) (default_formed sound value)
  have read (fields : Fields) : schema.readNode (.map kind key value) (.struct fields) target =
      let reading := readEntries .verbatim key.name
        (schema.readNamed value (schema.default value)) fields.names [] fields
      (reading.outcome, .map reading.target) := by
    rw [read_node_eq, readAt, text_key_naming key texts]
    rfl
  rw [read, read]
  exact entries.made Val.map

theorem read_entry_struct (schema : Schema) (key value : Ty) (record : Fields) :
    schema.readEntry key value (.struct record) =
      let keyRead := schema.readNamed key (schema.default key) keyField record
      let valueRead := schema.readNamed value (schema.default value) valueField keyRead.source
      match keyRead.outcome with
      | .error fault => (.error (fault.inField keyField), (keyRead.target, .absent))
      | .ok () => (valueRead.outcome.mapError (Fault.inField valueField),
          (keyRead.target, valueRead.target)) := by
  have opened : Slots.inlet.openStruct ⟨[.struct record], 0⟩ = (.ok record, ⟨[.struct record], 1⟩) := rfl
  rw [readEntry, readRecord, opened]
  dsimp only
  cases (schema.readNamed key (schema.default key) keyField record).outcome <;> rfl

/-- The value is read from what reading the key leaves, which is the record but for the key. -/
theorem entry_concurs (sound : schema.Sound) {key value : Ty}
    (fields : schema.FieldsConcur (.entry key value) left right) :
    Concur (schema.readEntry key value (.struct left)) (schema.readEntry key value (.struct right)) := by
  have keys := fields keyField (.value key) rfl
  have values := fields valueField (.value value) rfl
  have kept (record : Fields) :
      (schema.readNamed key (schema.default key) keyField record).source.get? valueField =
        record.get? valueField := named_keeps key (schema.default key) keyField record (by decide)
  rw [← kept, ← kept right] at values
  have keyRead := named_concur keys (default_formed sound key)
  have valueRead := named_concur values (default_formed sound value)
  rw [read_entry_struct, read_entry_struct]
  rcases keyRead.either with ⟨result, done, other⟩ | ⟨fault, otherFault, failed, otherFailed⟩
  · obtain ⟨leftDone, leftKey⟩ := Prod.mk.inj done
    obtain ⟨rightDone, rightKey⟩ := Prod.mk.inj other
    simp only [leftDone, rightDone, leftKey, rightKey]
    exact valueRead.map _ _ (Prod.mk result)
  · have leftFailed : (schema.readNamed key (schema.default key) keyField left).outcome = _ := failed
    have rightFailed : (schema.readNamed key (schema.default key) keyField right).outcome = _ :=
      otherFailed
    simp only [leftFailed, rightFailed]
    exact .failed rfl rfl

/-- Structs that are read alike field by field are read alike. The recursion goes through boxes and
optionals; whatever else is not read from structs fails for both. -/
theorem type_struct_concurs (sound : schema.Sound) (assembled : schema.Assembled) (type : Ty)
    (supports : schema.SupportsType type) (fields : schema.FieldsConcur (.value type) left right) :
    schema.ReadsConcur (.value type) (.struct left) (.struct right) := by
  cases type with
  | boxed content =>
      exact concur_boxed (type_struct_concurs sound assembled content (supports.direct .boxed) fields)
  | option content =>
      have inside := supports.direct .content
      exact concur_optional sound inside.declared (by simp)
        (type_struct_concurs sound assembled content inside fields)
  | record owner =>
      intro target formed
      rw [read_node_struct, read_node_struct]
      exact structure_concurs sound assembled supports.declared fields formed
  | map kind key value =>
      intro target _
      cases naming : schema.keyNaming? key with
      | none =>
          rw [read_node_eq, read_node_eq, readAt, readAt, naming]
          exact .failed rfl rfl
      | some _ =>
          have texts := supports.keyed kind key value .refl (by simp [naming])
          have view (name : String) : schema.fieldView (.value (.map kind key value)) name =
              some (.value value) := by rw [fieldView, typeField, naming]
          exact named_map_concurs sound assembled texts (fun name => fields name _ (view name)) target
  | _ =>
      intro target _
      rw [read_node_eq, read_node_eq, readAt, readAt]
      exact .failed rfl rfl

theorem struct_concurs (sound : schema.Sound) (assembled : schema.Assembled) (view : View)
    (supports : schema.Supports view) (fields : schema.FieldsConcur view left right) :
    schema.NodesConcur view (.struct left) (.struct right) where
  null := by simp
  reads := by
    cases view with
    | value type => exact type_struct_concurs sound assembled type supports fields
    | entry key value => exact entry_concurs sound fields
    | unread => trivial

end Structs

section Arrays

variable {left right : List Node}

/-- Two arrays of the same size whose elements are read alike. -/
structure ItemsConcur (schema : Schema) (view : View) (left right : List Node) : Prop where
  size : left.length = right.length
  each : ∀ position node other, left[position]? = some node → right[position]? = some other →
    schema.NodesConcur (schema.elementView view position) node other

theorem elements_concur {Item : Type} {read : Slots → Reading Item Slots} (reads : ReadsElement read)
    (size : left.length = right.length)
    (each : ∀ (position : Nat) node other, left[position]? = some node → right[position]? = some other →
      Concur (read ⟨[node], 0⟩).made (read ⟨[other], 0⟩).made)
    {Contents : Type} (add : Contents → Item → Contents) (contents : Contents) :
    Concur (readElements read add left.length contents ⟨left, 0⟩).made
      (readElements read add right.length contents ⟨right, 0⟩).made := by
  have alone (node : Node) : (Slots.mk [node] 0).current? = some node := rfl
  have all : List.Forall₂ (fun node other => ∀ first second : Slots, first.current? = some node →
      second.current? = some other → Concur (read first).made (read second).made) left right := by
    rw [List.forall₂_iff_get]
    refine ⟨size, fun position inside otherInside first second current otherCurrent => ?_⟩
    rw [(reads.same current (alone _)).made_eq, (reads.same otherCurrent (alone _)).made_eq]
    exact each position _ _ (List.getElem?_eq_getElem inside) (List.getElem?_eq_getElem otherInside)
  rw [← size]
  exact read_elements_concur reads add all rfl rfl le_rfl contents

theorem sequence_concurs (sound : schema.Sound) {kind : SequenceKind} {item : Ty} {cursor other : Nat}
    (items : schema.ItemsConcur (.value (.sequence kind item)) left right) (target : Val) :
    Concur (schema.readNode (.sequence kind item) (.array left cursor) target)
      (schema.readNode (.sequence kind item) (.array right other) target) := by
  have elements := elements_concur (schema.reads_element schema.readObject item (schema.default item))
    items.size (fun position node other current otherCurrent =>
      (items.each position node other current otherCurrent).reads _
        (default_formed sound item))
    (fun items element => items ++ [element]) []
  rw [read_node_eq, read_node_eq, readAt, readAt]
  exact elements.made Val.list

theorem record_map_concurs {kind : MapKind} {key value : Ty} {cursor other : Nat}
    (unnamed : schema.keyNaming? key = none)
    (items : schema.ItemsConcur (.value (.map kind key value)) left right) (target : Val) :
    Concur (schema.readNode (.map kind key value) (.array left cursor) target)
      (schema.readNode (.map kind key value) (.array right other) target) := by
  have view (position : Nat) :
      schema.elementView (.value (.map kind key value)) position = .entry key value := by
    rw [elementView, typeElement, unnamed]
  have elements := elements_concur (Marshal.reads_record
      (schema.readNamed key (schema.default key) keyField)
      (schema.readNamed value (schema.default value) valueField))
    items.size (fun position node other current otherCurrent =>
      (view position ▸ items.each position node other current otherCurrent).reads)
    (fun entries entry => Val.insertEntry entries entry.1 entry.2) []
  rw [read_node_eq, read_node_eq, readAt, readAt, unnamed]
  exact elements.made Val.map

/-- Only as many elements as there are slots are looked at. -/
theorem tuple_concurs (sound : schema.Sound) (assembled : schema.Assembled) {types : List Ty}
    {cursor other : Nat} (items : schema.ItemsConcur (.value (.tuple types)) left right) {target : Val}
    (formed : schema.Formed (.tuple types) target) :
    Concur (schema.readNode (.tuple types) (.array left cursor) target)
      (schema.readNode (.tuple types) (.array right other) target) := by
  obtain ⟨targets, rfl, fits⟩ := formed.tuple
  have read (nodes : List Node) (cursor : Nat) :
      schema.readNode (.tuple types) (.array nodes cursor) (.tuple targets) =
        (Step.all ((slotsFrom types nodes.length 0).map fun slot =>
          (schema.slotPortion nodes slot).filled)).andThen (tupleEnd types.length nodes.length)
            (.tuple targets) := by
    have opened : Slots.inlet.openArray ⟨[.array nodes cursor], 0⟩ =
        (.ok ⟨nodes, 0⟩, ⟨[.array nodes cursor], 1⟩) := rfl
    rw [readNode, fill, read_tuple_filled fits opened, List.map_map]
    rfl
  rw [read, read, ← items.size]
  refine Step.and_then_concur (Step.all_concur (schema.Formed (.tuple types)) ?_ ?_ formed)
    fun result _ => .refl _
  · rintro ⟨type, position⟩ inside whole wholeFormed
    obtain ⟨known, within⟩ := mem_slots_from.mp inside
    have current : (Slots.mk left position).current? = some left[position] :=
      List.getElem?_eq_getElem within
    have otherWithin : position < right.length := items.size ▸ within
    have otherCurrent : (Slots.mk right position).current? = some right[position] :=
      List.getElem?_eq_getElem otherWithin
    have view : schema.elementView (.value (.tuple types)) position = .value type := by
      rw [elementView, typeElement, known]
    have part := (view ▸ items.each position _ _ current otherCurrent).reads _
      (wholeFormed.filled (slot_reaches known) (schema.default type))
    rw [← schema.fill_next type current, ← schema.fill_next type otherCurrent] at part
    apply Portion.filled_concur (schema.slotPortion left (type, position))
      (schema.slotPortion right (type, position)) rfl rfl
    simp only [slotPortion, Step.map_fault_eq]
    exact part.map _ _ id
  · rintro ⟨type, position⟩ inside whole result wholeFormed done
    have known := (mem_slots_from.mp inside).1
    have settles := read_settles sound assembled type Slots.site_finds_inside ⟨left, position⟩
    exact (slot_settles known settles).keeps (slot_stays sound known) wholeFormed done

/-- Arrays that are read alike element by element are read alike. -/
theorem type_array_concurs (sound : schema.Sound) (assembled : schema.Assembled) (type : Ty)
    (supports : schema.SupportsType type) {cursor other : Nat}
    (items : schema.ItemsConcur (.value type) left right) :
    schema.ReadsConcur (.value type) (.array left cursor) (.array right other) := by
  cases type with
  | boxed content =>
      exact concur_boxed (type_array_concurs sound assembled content (supports.direct .boxed)
        ⟨items.size, items.each⟩)
  | option content =>
      have inside := supports.direct .content
      exact concur_optional sound inside.declared (by simp)
        (type_array_concurs sound assembled content inside ⟨items.size, items.each⟩)
  | sequence kind item => exact fun target _ => sequence_concurs sound items target
  | tuple types => exact fun target formed => tuple_concurs sound assembled items formed
  | map kind key value =>
      intro target _
      cases naming : schema.keyNaming? key with
      | none => exact record_map_concurs naming items target
      | some _ =>
          rw [read_node_eq, read_node_eq, readAt, readAt, naming]
          exact .failed rfl rfl
  | _ =>
      intro target _
      rw [read_node_eq, read_node_eq, readAt, readAt]
      exact .failed rfl rfl

theorem array_concurs (sound : schema.Sound) (assembled : schema.Assembled) (view : View)
    (supports : schema.Supports view) {cursor other : Nat}
    (items : schema.ItemsConcur view left right) :
    schema.NodesConcur view (.array left cursor) (.array right other) where
  null := by simp
  reads := by
    cases view with
    | value type => exact type_array_concurs sound assembled type supports items
    | entry key value => exact Concur.failed rfl rfl
    | unread => trivial

end Arrays

section Rearranging

theorem related_refl (view : View) (node? : Option Node) :
    Option.Rel (schema.NodesConcur view) node? node? := by
  cases node? with
  | none => exact .none
  | some node => exact .some (.refl view node)

/-- Each difference is seen alike by what is read of it. The induction is on how the documents have
come to differ. -/
theorem rearranged_concur (sound : schema.Sound) (assembled : schema.Assembled) {left right : Node}
    (related : schema.Rearranged view left right) (supports : schema.Supports view) :
    schema.NodesConcur view left right := by
  induction related with
  | refl view node => exact .refl view node
  | symm _ induction => exact (induction supports).symm
  | trans _ _ first second => exact (first supports).trans (second supports)
  | permuted distinct order =>
      apply struct_concurs sound assembled _ supports
      intro name inner _
      rw [Fields.get_perm order distinct]
      exact related_refl inner _
  | @unknown _ _ name node undeclared _ =>
      apply struct_concurs sound assembled _ supports
      intro wanted inner read
      have different : name ≠ wanted := by
        rintro rfl
        rw [read] at undeclared
        cases undeclared
      rw [Fields.get_put, if_neg different]
      exact related_refl inner _
  | field read found _ induction =>
      apply struct_concurs sound assembled _ supports
      intro name inner known
      rw [Fields.get_put]
      split_ifs with same
      · subst same
        obtain rfl := Option.some.inj (read.symm.trans known)
        rw [found]
        exact .some (induction (supports_field supports read))
      · exact related_refl inner _
  | @element view items cursor position left right found _ induction =>
      apply array_concurs sound assembled _ supports
      refine ⟨List.length_set.symm, fun other node changed known replaced => ?_⟩
      rw [List.getElem?_set] at replaced
      split_ifs at replaced with same inside
      · subst same
        obtain rfl := Option.some.inj (found.symm.trans known)
        cases replaced
        exact induction (supports_element supports position)
      · obtain rfl := Option.some.inj (known.symm.trans replaced)
        exact .refl _ node

end Rearranging

/-- Documents that differ only in the order of fields, at any depth, and in fields that the structures
and the records which they stand in do not declare, are read alike: as a field, as the next element
and as a struct, reading one succeeds exactly when reading the other does, with the same value. All
that is read of the type is declared without fault, and where its keys are field names they are
texts. -/
theorem rearranged_documents_read_alike (sound : schema.Sound) (assembled : schema.Assembled)
    (declared : schema.DeclaredThrough type) (keyed : schema.TextKeyed type) {target : Val}
    (typed : schema.HasType type target) {left right : Node}
    (related : schema.Rearranged (.value type) left right) :
    (∀ name leftFields rightFields, Fields.get? leftFields name = some left →
      Fields.get? rightFields name = some right →
        Concur (schema.readNamed type target name leftFields).made
          (schema.readNamed type target name rightFields).made) ∧
    (∀ leftSlots rightSlots, leftSlots.current? = some left → rightSlots.current? = some right →
      Concur (schema.readNext type target leftSlots).made
        (schema.readNext type target rightSlots).made) ∧
    ∀ name leftFields rightFields, type = .record name → left = .struct leftFields →
      right = .struct rightFields →
        Concur (schema.readObject name target leftFields).made
          (schema.readObject name target rightFields).made := by
  have formed := typed_formed typed
  have concur := rearranged_concur sound assembled related ⟨declared, keyed⟩
  refine ⟨?_, ?_, ?_⟩
  · intro name leftFields rightFields leftFound rightFound
    apply named_concur _ formed
    rw [leftFound, rightFound]
    exact .some concur
  · intro leftSlots rightSlots leftCurrent rightCurrent
    have read := concur.reads target formed
    rwa [← schema.fill_next type leftCurrent, ← schema.fill_next type rightCurrent] at read
  · rintro name leftFields rightFields rfl rfl rfl
    have read := concur.reads target formed
    rwa [read_node_struct, read_node_struct] at read

end Schema

/-- The fares of a stop, its fields and those of a note change places. The next stop, which has no
fares and is left out, has a colour in one document, and so has a note. -/
theorem Schema.rearranged_documents_read_alike_timetable :
    let east : Node := .struct [("name", .text "East"),
      ("fares", .struct [("adult", .uint 7), ("child", .uint 3)]),
      ("next", .struct [("name", .text "West")])]
    let moved : Node := .struct [("next", .struct [("name", .text "West"), ("colour", .text "red")]),
      ("fares", .struct [("child", .uint 3), ("adult", .uint 7)]), ("name", .text "East")]
    let note : Node := .struct [("key", .uint 1), ("value", .text "late")]
    let longer : Node := .struct [("value", .text "late"), ("key", .uint 1), ("colour", .null)]
    let left : Node := .array [east, .array [note] 0] 0
    let right : Node := .array [moved, .array [longer] 0] 0
    let target := Val.tuple [Route.stop "North" [] .absent 3, .map []]
    let reading := Route.schema.readNext Route.timetable target ⟨[left], 0⟩
    let other := Route.schema.readNext Route.timetable target ⟨[right], 0⟩
    Route.schema.Sound ∧ Route.schema.Assembled ∧ Route.schema.DeclaredThrough Route.timetable ∧
      Route.schema.TextKeyed Route.timetable ∧ Route.schema.HasType Route.timetable target ∧
      Route.schema.Rearranged (.value Route.timetable) left right ∧ reading.outcome = .ok () ∧
      other.outcome = .ok () ∧ reading.target = other.target ∧
      reading.target.equal (.tuple [Route.stop "East"
        [(.text "adult", .int 7), (.text "child", .int 3)] .absent 3, .map [(.int 1, .text "late")]]) =
          true := by
  intro east moved note longer left right target reading other
  have fares : Route.schema.Rearranged (.value (.boxed (.record "Stop"))) east
      (.struct [("name", .text "East"), ("fares", .struct [("child", .uint 3), ("adult", .uint 7)]),
        ("next", .struct [("name", .text "West")])]) :=
    @Rearranged.field _ _ _ _ "fares" _ _ rfl rfl (.permuted (by decide) (.swap _ _ _))
  have red : Route.schema.Rearranged (.value Route.next) (.struct [("name", .text "West")])
      (.struct [("name", .text "West"), ("colour", .text "red")]) :=
    @Rearranged.unknown _ _ [("name", .text "West")] "colour" (.text "red") rfl rfl
  have colour : Route.schema.Rearranged (.value (.boxed (.record "Stop")))
      (.struct [("name", .text "East"), ("fares", .struct [("child", .uint 3), ("adult", .uint 7)]),
        ("next", .struct [("name", .text "West")])])
      (.struct [("name", .text "East"), ("fares", .struct [("child", .uint 3), ("adult", .uint 7)]),
        ("next", .struct [("name", .text "West"), ("colour", .text "red")])]) :=
    @Rearranged.field _ _ _ _ "next" _ _ rfl rfl red
  have order : Route.schema.Rearranged (.value (.boxed (.record "Stop")))
      (.struct [("name", .text "East"), ("fares", .struct [("child", .uint 3), ("adult", .uint 7)]),
        ("next", .struct [("name", .text "West"), ("colour", .text "red")])]) moved :=
    .permuted (by decide) (List.reverse_perm _).symm
  have notes : Route.schema.Rearranged (.entry (.primitive (.int .u8)) .string) note longer :=
    .trans (.permuted (by decide) (.swap _ _ _))
      (@Rearranged.unknown _ _ [("value", .text "late"), ("key", .uint 1)] "colour" .null rfl rfl)
  have related : Route.schema.Rearranged (.value Route.timetable) left right :=
    .trans (@Rearranged.element _ _ _ _ 0 _ _ rfl (fares.trans (colour.trans order)))
      (@Rearranged.element _ _ _ _ 1 _ _ rfl (@Rearranged.element _ _ _ _ 0 _ _ rfl notes))
  have supported := Route.timetable_supported
  have typed := Route.timetable_typed "North"
  obtain ⟨-, next, -⟩ := rearranged_documents_read_alike Route.sound Route.assembled
    supported.declared supported.keyed typed related
  have concur := next ⟨[left], 0⟩ ⟨[right], 0⟩ rfl rfl
  have read : reading.outcome = .ok () := by decide +kernel
  exact ⟨Route.sound, Route.assembled, supported.declared, supported.keyed, typed, related, read,
    concur.succeed.mp read, concur.same read, by decide +kernel⟩

end Marshal
