import Marshal.Proofs.RoundTrip.Elements

/-!
# Maps carried by structs and by arrays

A map whose keys are field names is carried by a struct with a field for each of its entries, any
other map by an array of records. Entries are read in key order, so each goes to the end of those
before it.
-/

namespace Marshal

namespace Val

theorem insert_entry_last {entries : List (Val × Val)} {key : Val}
    (greater : ∀ entry ∈ entries, order key entry.1 = .gt) (value : Val) :
    insertEntry entries key value = entries ++ [(key, value)] := by
  induction entries with
  | nil => rfl
  | cons entry rest induction =>
      obtain ⟨known, old⟩ := entry
      rw [List.forall_mem_cons] at greater
      rw [insertEntry, greater.1, induction greater.2, List.cons_append]

/-- Entries that are added in key order are kept as they come. -/
theorem insert_entries_sorted {results entries : List (Val × Val)}
    (sorted : ((entries ++ results).map Prod.fst).Pairwise fun earlier later =>
      order later earlier = .gt) :
    results.foldl (fun entries entry => insertEntry entries entry.1 entry.2) entries =
      entries ++ results := by
  induction results generalizing entries with
  | nil => simp
  | cons result rest induction =>
      have last : insertEntry entries result.1 result.2 = entries ++ [result] := by
        apply insert_entry_last
        intro entry inside
        rw [List.map_append, List.pairwise_append] at sorted
        exact sorted.2.2 _ (List.mem_map_of_mem inside) _ List.mem_cons_self
      rw [List.foldl_cons, last, induction (by simpa using sorted), List.append_assoc,
        List.singleton_append]

theorem entries_rebuilt {entries : List (Val × Val)}
    (sorted : (entries.map Prod.fst).Pairwise fun earlier later => order later earlier = .gt) :
    entries.foldl (fun entries entry => insertEntry entries entry.1 entry.2) [] = entries :=
  insert_entries_sorted (by rwa [List.nil_append])

end Val

theorem Node.depth_field {fields : Fields} {name : String} {node : Node}
    (found : fields.get? name = some node) : node.depth ≤ Node.depthFields fields := by
  induction fields with
  | nil => simp [Fields.get?] at found
  | cons field rest induction =>
      obtain ⟨present, other⟩ := field
      rw [Fields.get?] at found
      rw [Node.depthFields]
      split_ifs at found
      · cases found
        exact Nat.le_max_left _ _
      · exact (induction found).trans (Nat.le_max_right _ _)

theorem Fields.get_leave (fields : Fields) (name wanted : String) (node? : Option Node) :
    ((Fields.place name).leave node? fields).get? wanted =
      if name = wanted then node?.or (fields.get? wanted) else fields.get? wanted := by
  cases node? with
  | none => exact (ite_self _).symm
  | some node => exact Fields.get_put fields name wanted node

/-- The record that stands for an entry of a map. -/
def entryFields (nodes : Option Node × Option Node) : Fields :=
  (Fields.place valueField).leave nodes.2 ((Fields.place keyField).leave nodes.1 [])

theorem key_shown (nodes : Option Node × Option Node) :
    (entryFields nodes).get? keyField = nodes.1 := by
  rw [entryFields, Fields.get_leave, if_neg (by decide), Fields.get_leave, if_pos rfl]
  exact Option.or_none

theorem value_shown (nodes : Option Node × Option Node) :
    (entryFields nodes).get? valueField = nodes.2 := by
  rw [entryFields, Fields.get_leave, if_pos rfl, Fields.get_leave, if_neg (by decide)]
  exact Option.or_none

theorem shown_depth {fields : Fields} {name : String} {node? : Option Node}
    (shown : fields.get? name = node?) : node?.elim 0 Node.depth ≤ Node.depthFields fields := by
  cases node? with
  | none => exact Nat.zero_le _
  | some node => exact Node.depth_field shown

namespace Schema

variable {schema : Schema}

/-- What a named field shows is read from it, as long as structures are read deep enough. -/
theorem Reread.field {type : Ty} {node? : Option Node} {target result : Val}
    (reread : schema.Reread type node? target result)
    {deeper : String → Val → Fields → Reading Val Fields} {fields : Fields} {name : String}
    (shown : fields.get? name = node?) {bound : Nat} (deep : schema.Deep bound deeper)
    (shallow : node?.elim 0 Node.depth ≤ bound) :
    (schema.readAt deeper type target (Fields.inlet name) fields).Yields result
      ((Fields.place name).Keeps fields) :=
  reread deeper (deep.mono shallow) (Fields.place name) fields (Fields.shows_of_get shown)

/-- An entry that is written as a record is read back from it. -/
theorem record_read {keyType valueType : Ty} {nodes : Option Node × Option Node} {key value : Val}
    (keyReread : schema.Reread keyType nodes.1 (schema.default keyType) key)
    (valueReread : schema.Reread valueType nodes.2 (schema.default valueType) value)
    {deeper : String → Val → Fields → Reading Val Fields}
    (deep : schema.Deep (Node.struct (entryFields nodes)).depth deeper) (slots : Slots)
    (current : slots.current? = some (.struct (entryFields nodes))) :
    (readRecord (schema.readAt deeper keyType (schema.default keyType) (Fields.inlet keyField))
      (schema.readAt deeper valueType (schema.default valueType) (Fields.inlet valueField))
      slots).Yields (key, value) (Slots.place.Keeps slots) := by
  have deep : schema.Deep (Node.depthFields (entryFields nodes)) deeper := deep.mono (Nat.le_succ _)
  obtain ⟨keyOutcome, keyTarget, keySource⟩ :=
    keyReread.field (key_shown nodes) deep (shown_depth (key_shown nodes))
  have valueShown := (keySource valueField (by decide)).trans (value_shown nodes)
  obtain ⟨valueOutcome, valueTarget, -⟩ :=
    valueReread.field valueShown deep (shown_depth (value_shown nodes))
  have shows : Slots.place.Shows slots (some (.struct (entryFields nodes))) := current
  have opened : Slots.inlet.openStruct slots = (.ok (entryFields nodes), slots.advance) :=
    Slots.place.open_struct_eq shows
  unfold readRecord
  rw [opened]
  simp only [keyOutcome, valueOutcome, keyTarget, valueTarget]
  exact ⟨rfl, rfl, Slots.place.struct_keeps _ shows⟩

theorem record_written {keyType valueType : Ty} {entry : Val × Val}
    {nodes : Option Node × Option Node} (key : schema.Written keyType entry.1 nodes.1)
    (value : schema.Written valueType entry.2 nodes.2) {levels : Nat}
    (enough : entry.1.depth ≤ levels ∧ entry.2.depth ≤ levels) (slots : Slots) :
    treeSink.next.withStruct
      (((schema.writeAt treeSink (schema.writeStructure treeSink levels) keyType entry.1
          (treeSink.field keyField)).inField keyField).andThen
        ((schema.writeAt treeSink (schema.writeStructure treeSink levels) valueType entry.2
          (treeSink.field valueField)).inField valueField)) slots =
      (.ok (), slots.push (.struct (entryFields nodes))) := by
  have first := key levels enough.1 (Fields.place keyField) []
  have second := value levels enough.2 (Fields.place valueField)
    ((Fields.place keyField).leave nodes.1 [])
  have keyPlace : treeSink.field keyField = (Fields.place keyField).outlet := rfl
  have valuePlace : treeSink.field valueField = (Fields.place valueField).outlet := rfl
  have opens := Slots.place.struct_eq
  rw [keyPlace, valuePlace]
  refine (opens _ slots).trans ?_
  rw [Step.andThen, Step.inField, Step.mapFault, first]
  dsimp only
  rw [Step.inField, Step.mapFault, second]
  rfl

theorem records_written {keyType valueType : Ty} {entries : List (Val × Val)}
    {nodes : List (Option Node × Option Node)}
    (written : List.Forall₂ (fun entry nodes => schema.Written keyType entry.1 nodes.1 ∧
      schema.Written valueType entry.2 nodes.2) entries nodes) {levels : Nat}
    (enough : Val.depthEntries entries ≤ levels) :
    List.Forall₂ (fun step node => ∀ slots : Slots, step slots = (.ok (), slots.push node))
      (entries.map fun entry => treeSink.next.withStruct
        (((schema.writeAt treeSink (schema.writeStructure treeSink levels) keyType entry.1
            (treeSink.field keyField)).inField keyField).andThen
          ((schema.writeAt treeSink (schema.writeStructure treeSink levels) valueType entry.2
            (treeSink.field valueField)).inField valueField)))
      (nodes.map fun nodes => .struct (entryFields nodes)) := by
  induction written with
  | nil => exact .nil
  | @cons entry nodes _ _ first _ induction =>
      rw [Val.depthEntries] at enough
      exact .cons (record_written first.1 first.2 ⟨by omega, by omega⟩) (induction (by omega))

/-- Keys are restored exactly, as nothing in them is skipped. -/
theorem records_reread (sound : schema.Sound) {keyType valueType : Ty}
    (nothing : schema.NothingSkipped keyType) {entries : List (Val × Val)}
    {nodes : List (Option Node × Option Node)}
    (keys : ∀ entry ∈ entries, schema.HasType keyType entry.1)
    (comparable : ∀ entry ∈ entries, entry.1.equal entry.1 = true)
    (carried : List.Forall₂ (fun entry nodes => schema.Carries keyType entry.1 nodes.1 ∧
      schema.Carries valueType entry.2 nodes.2) entries nodes) :
    ∃ results, schema.RestoresEntries valueType entries results ∧
      List.Forall₂ (fun nodes result =>
        schema.Reread keyType nodes.1 (schema.default keyType) result.1 ∧
          schema.Reread valueType nodes.2 (schema.default valueType) result.2) nodes results := by
  induction carried with
  | nil => exact ⟨[], .nil, .nil⟩
  | @cons entry nodes _ _ first _ induction =>
      rw [List.forall_mem_cons] at keys comparable
      obtain ⟨results, restores, rereads⟩ := induction keys.2 comparable.2
      obtain ⟨key, keyRestores, keyReread⟩ := first.1.read _ (default_typed sound keyType)
      obtain ⟨value, valueRestores, valueReread⟩ := first.2.read _ (default_typed sound valueType)
      obtain rfl := restores_exact sound keys.1 (default_typed sound keyType) comparable.1 nothing
        keyRestores
      exact ⟨(entry.1, value) :: results, .cons valueRestores restores,
        .cons ⟨keyReread, valueReread⟩ rereads⟩

theorem sorted_results {entries results : List (Val × Val)}
    (sorted : entries.Pairwise fun earlier later => Val.order later.1 earlier.1 = .gt)
    (keys : results.map Prod.fst = entries.map Prod.fst) :
    (results.map Prod.fst).Pairwise fun earlier later => Val.order later earlier = .gt := by
  rw [keys, List.pairwise_map]
  exact sorted

/-- The array of the records that stand for the entries of a map. -/
def recordArray (nodes : List (Option Node × Option Node)) : Node :=
  .array (nodes.map fun nodes => .struct (entryFields nodes)) 0

section Records

variable {kind : MapKind} {keyType valueType : Ty} {entries : List (Val × Val)}
variable {nodes : List (Option Node × Option Node)}

theorem record_map_written (unnamed : schema.keyNaming? keyType = none)
    (written : List.Forall₂ (fun entry nodes => schema.Written keyType entry.1 nodes.1 ∧
      schema.Written valueType entry.2 nodes.2) entries nodes) :
    schema.Written (.map kind keyType valueType) (.map entries) (some (recordArray nodes)) := by
  intro levels enough State place state
  rw [Val.depth] at enough
  have pushed := all_from_pushes (records_written written (Nat.le_of_succ_le enough)) 0 .empty
  rw [writeAt, unnamed]
  dsimp only
  rw [place.array_eq, Val.entries, pushed]
  rfl

/-- Records are read one after the other; one that repeats a key replaces the value before it. -/
theorem record_map_reread (kind : MapKind) (unnamed : schema.keyNaming? keyType = none)
    {results : List (Val × Val)} (rereads : List.Forall₂ (fun nodes result =>
      schema.Reread keyType nodes.1 (schema.default keyType) result.1 ∧
        schema.Reread valueType nodes.2 (schema.default valueType) result.2) nodes results)
    (target : Val) :
    schema.Reread (.map kind keyType valueType) (some (recordArray nodes)) target
      (.map (results.foldl (fun entries entry => Val.insertEntry entries entry.1 entry.2) [])) := by
  intro deeper deep State place state shows
  have deep : schema.Deep (Node.depthItems (nodes.map fun nodes => .struct (entryFields nodes)))
      deeper := deep.mono (Nat.le_succ _)
  have yields := read_elements_yields
    (fun entries entry => Val.insertEntry entries entry.1 entry.2)
    (elements_read (fun nodes => .struct (entryFields nodes)) rereads
      (fun nodes result reread inside => record_read reread.1 reread.2 (deep.mono inside)) le_rfl)
    le_rfl ⟨nodes.map fun nodes => .struct (entryFields nodes), 0⟩ rfl []
  rw [readAt, unnamed]
  dsimp only
  rw [place.open_array_eq shows]
  exact ⟨yields.outcome, congrArg Val.map yields.target, place.array_keeps _ shows⟩

/-- A map whose keys are not field names is carried by the array of its entries' records. -/
theorem record_map_carries (sound : schema.Sound)
    (typed : schema.HasType (.map kind keyType valueType) (.map entries))
    (unnamed : schema.keyNaming? keyType = none) (nothing : schema.NothingSkipped keyType)
    (each : ∀ entry ∈ entries, (∃ node?, schema.Carries keyType entry.1 node?) ∧
      ∃ node?, schema.Carries valueType entry.2 node?) :
    ∃ node?, schema.Carries (.map kind keyType valueType) (.map entries) node? := by
  obtain ⟨nodes, carried⟩ : ∃ nodes : List (Option Node × Option Node),
      List.Forall₂ (fun entry nodes => schema.Carries keyType entry.1 nodes.1 ∧
        schema.Carries valueType entry.2 nodes.2) entries nodes := by
    apply exists_forall₂
    intro entry inside
    obtain ⟨⟨key, keyCarries⟩, ⟨value, valueCarries⟩⟩ := each entry inside
    exact ⟨(key, value), keyCarries, valueCarries⟩
  have written := carried.imp fun _ _ both => And.intro both.1.always_written both.2.always_written
  rcases typed with _ | _ | _ | _ | _ | _ | _ | _ | _ | _ | _ | ⟨keys, comparable, -, sorted⟩
  refine ⟨some (recordArray nodes), record_map_written unnamed written, by simp [recordArray],
    by simp, ?_⟩
  intro target _
  obtain ⟨results, restores, rereads⟩ := records_reread sound nothing keys comparable carried
  have reread := record_map_reread kind unnamed rereads target
  rw [Val.entries_rebuilt (sorted_results sorted (restores_entries_keys restores))] at reread
  exact ⟨.map results, .map restores, reread⟩

end Records

theorem named_key (keyType : Ty) {naming : KeyNaming}
    (named : schema.keyNaming? keyType = some naming) {key : Val}
    (typed : schema.HasType keyType key) : ∃ text, key = .text text := by
  cases keyType with
  | string =>
      cases typed
      exact ⟨_, rfl⟩
  | textual name =>
      cases typed
      exact ⟨_, rfl⟩
  | boxed inner =>
      cases typed with
      | boxed typed =>
          rw [keyNaming?] at named
          exact named_key inner named typed
  | _ => cases named

/-- What stands for an entry of a map whose keys are field names: a field that is named by the
key, and that the name leads back to it. -/
structure EntryField (schema : Schema) (naming : KeyNaming) (valueType : Ty) (entry : Val × Val)
    (field : String × Node) : Prop where
  name : naming.toName? entry.1.asText = some field.1
  back : naming.ofName? field.1 = some entry.1.asText
  node : schema.Carries valueType entry.2 (some field.2)

section Named

variable {naming : KeyNaming} {keyType valueType : Ty} {entries : List (Val × Val)} {fields : Fields}

theorem entry_fields_distinct (texts : ∀ entry ∈ entries, ∃ text, entry.1 = .text text)
    (sorted : entries.Pairwise fun earlier later => Val.order later.1 earlier.1 = .gt)
    (back : List.Forall₂ (fun entry field => naming.ofName? field.1 = some entry.1.asText)
      entries fields) :
    (fields.map Prod.fst).Nodup := by
  have back : (fields.map Prod.fst).map naming.ofName? =
      entries.map fun entry => some entry.1.asText := by
    clear sorted texts
    induction back with
    | nil => rfl
    | cons first _ induction => rw [List.map_cons, List.map_cons, List.map_cons, first, induction]
  apply List.Nodup.of_map naming.ofName?
  rw [back]
  refine List.pairwise_map.mpr (sorted.imp_of_mem ?_)
  rintro earlier later earlierInside laterInside greater same
  obtain ⟨earlierText, earlierKey⟩ := texts earlier earlierInside
  obtain ⟨laterText, laterKey⟩ := texts later laterInside
  rw [earlierKey, laterKey] at same greater
  have equal : earlierText = laterText := by simpa [Val.asText] using same
  simp [Val.order, equal] at greater

theorem named_written (keyType : Ty) {levels : Nat} (enough : Val.depthEntries entries ≤ levels)
    (written : List.Forall₂ (fun entry field => naming.toName? entry.1.asText = some field.1 ∧
      schema.Written valueType entry.2 (some field.2)) entries fields) (done : Fields)
    (distinct : ((done ++ fields).map Prod.fst).Nodup) :
    Step.all (entries.map fun entry =>
      match naming.toName? entry.1.asText with
      | none => .fail (.of (.keyNotWritable keyType.name))
      | some name => (schema.writeAt treeSink (schema.writeStructure treeSink levels) valueType
          entry.2 (treeSink.field name)).inField name) done = (.ok (), done ++ fields) := by
  induction written generalizing done with
  | nil => simp [Step.all, Step.done]
  | @cons entry field _ _ first _ induction =>
      rw [Val.depthEntries] at enough
      have absent : field.1 ∉ done.names := by
        intro present
        rw [List.map_append, List.nodup_append] at distinct
        exact distinct.2.2 _ present _ List.mem_cons_self rfl
      have written := first.2 levels (by omega) (Fields.place field.1) done
      have put : (Fields.place field.1).leave (some field.2) done = done ++ [field] :=
        Fields.put_absent absent field.2
      have fieldPlace : treeSink.field field.1 = (Fields.place field.1).outlet := rfl
      have others := induction (by omega) (done ++ [field]) (by simpa using distinct)
      rw [Step.all] at others ⊢
      simp only [List.map_cons, List.foldr_cons, first.1, fieldPlace]
      rw [Step.andThen, Step.inField, Step.mapFault, written, put]
      dsimp only
      rw [others, List.append_assoc, List.singleton_append]

theorem named_reread (sound : schema.Sound)
    (texts : ∀ entry ∈ entries, ∃ text, entry.1 = .text text)
    (carried : List.Forall₂ (schema.EntryField naming valueType) entries fields) :
    ∃ results, schema.RestoresEntries valueType entries results ∧
      List.Forall₂ (fun field result =>
        (∃ text, naming.ofName? field.1 = some text ∧ result.1 = .text text) ∧
          schema.Reread valueType (some field.2) (schema.default valueType) result.2)
        fields results := by
  induction carried with
  | nil => exact ⟨[], .nil, .nil⟩
  | @cons entry field _ _ first _ induction =>
      rw [List.forall_mem_cons] at texts
      obtain ⟨⟨text, key⟩, texts⟩ := texts
      obtain ⟨results, restores, rereads⟩ := induction texts
      obtain ⟨value, valueRestores, valueReread⟩ := first.node.read _ (default_typed sound valueType)
      have back := first.back
      rw [key, Val.asText] at back
      exact ⟨(entry.1, value) :: results, .cons valueRestores restores,
        .cons ⟨⟨text, back, key⟩, valueReread⟩ rereads⟩

theorem named_read (keyType : Ty) {deeper : String → Val → Fields → Reading Val Fields} {bound : Nat}
    (deep : schema.Deep bound deeper) {fields : Fields} {results : List (Val × Val)}
    (rereads : List.Forall₂ (fun field result =>
      (∃ text, naming.ofName? field.1 = some text ∧ result.1 = .text text) ∧
        schema.Reread valueType (some field.2) (schema.default valueType) result.2) fields results)
    (distinct : (fields.map Prod.fst).Nodup) {document : Fields}
    (shown : ∀ field ∈ fields, document.get? field.1 = some field.2 ∧ field.2.depth ≤ bound)
    (known : List (Val × Val)) :
    (readEntries naming keyType.name
      (fun name fields =>
        schema.readAt deeper valueType (schema.default valueType) (Fields.inlet name) fields)
      (fields.map Prod.fst) known document).Yields
      (results.foldl (fun entries entry => Val.insertEntry entries entry.1 entry.2) known)
      fun _ => True := by
  induction rereads generalizing document known with
  | nil => exact ⟨rfl, rfl, trivial⟩
  | @cons field result fields results first _ induction =>
      obtain ⟨⟨text, back, key⟩, reread⟩ := first
      rw [List.forall_mem_cons] at shown
      rw [List.map_cons, List.nodup_cons] at distinct
      obtain ⟨outcome, target, source⟩ := reread.field shown.1.1 deep shown.1.2
      have others := induction distinct.2 (fun other inside => by
        rw [source other.1 fun same => distinct.1 (same ▸ List.mem_map_of_mem inside)]
        exact shown.2 other inside) (Val.insertEntry known result.1 result.2)
      rw [List.map_cons, readEntries, back]
      simp only [outcome, target, ← key]
      exact ⟨others.outcome, others.target, trivial⟩

theorem named_map_written {kind : MapKind} (named : schema.keyNaming? keyType = some naming)
    (written : List.Forall₂ (fun entry field => naming.toName? entry.1.asText = some field.1 ∧
      schema.Written valueType entry.2 (some field.2)) entries fields)
    (distinct : (fields.map Prod.fst).Nodup) :
    schema.Written (.map kind keyType valueType) (.map entries) (some (.struct fields)) := by
  intro levels enough State place state
  rw [Val.depth] at enough
  rw [writeAt, named]
  dsimp only
  rw [place.struct_eq, Val.entries]
  exact congrArg (fun written => (written.1, place.leave (some (.struct written.2)) state))
    (named_written keyType (Nat.le_of_succ_le enough) written [] distinct)

theorem named_map_reread (kind : MapKind) (named : schema.keyNaming? keyType = some naming)
    {results : List (Val × Val)}
    (rereads : List.Forall₂ (fun field result =>
      (∃ text, naming.ofName? field.1 = some text ∧ result.1 = .text text) ∧
        schema.Reread valueType (some field.2) (schema.default valueType) result.2) fields results)
    (distinct : (fields.map Prod.fst).Nodup) (target : Val) :
    schema.Reread (.map kind keyType valueType) (some (.struct fields)) target
      (.map (results.foldl (fun entries entry => Val.insertEntry entries entry.1 entry.2) [])) := by
  intro deeper deep State place state shows
  have deep : schema.Deep (Node.depthFields fields) deeper := deep.mono (Nat.le_succ _)
  have yields := named_read keyType deep rereads distinct
    (fun field inside =>
      have found := Fields.get_of_mem distinct inside
      ⟨found, Node.depth_field found⟩) []
  rw [readAt, named]
  dsimp only
  rw [place.open_struct_eq shows]
  exact ⟨yields.outcome, congrArg Val.map yields.target, place.struct_keeps _ shows⟩

end Named

/-- A map whose keys are field names is carried by the struct of its entries' fields. An entry
cannot be left out, since its value is not optional. -/
theorem named_map_carries (sound : schema.Sound) {kind : MapKind} {keyType valueType : Ty}
    {entries : List (Val × Val)} {naming : KeyNaming}
    (typed : schema.HasType (.map kind keyType valueType) (.map entries))
    (named : schema.keyNaming? keyType = some naming) (required : valueType.isOptional = false)
    (inverse : ∀ text, ∃ name, naming.toName? text = some name ∧ naming.ofName? name = some text)
    (each : ∀ entry ∈ entries, ∃ node?, schema.Carries valueType entry.2 node?) :
    ∃ node?, schema.Carries (.map kind keyType valueType) (.map entries) node? := by
  obtain ⟨fields, carried⟩ : ∃ fields : Fields,
      List.Forall₂ (schema.EntryField naming valueType) entries fields := by
    apply exists_forall₂
    intro entry inside
    obtain ⟨name, toName, ofName⟩ := inverse entry.1.asText
    obtain ⟨node?, carries⟩ := each entry inside
    obtain ⟨node, rfl⟩ := Option.ne_none_iff_exists'.mp (carries.filled required)
    exact ⟨(name, node), toName, ofName, carries⟩
  rcases typed with _ | _ | _ | _ | _ | _ | _ | _ | _ | _ | _ | ⟨keys, -, -, sorted⟩
  have texts : ∀ entry ∈ entries, ∃ text, entry.1 = .text text :=
    fun entry inside => named_key keyType named (keys entry inside)
  have distinct := entry_fields_distinct texts sorted (carried.imp fun _ _ => EntryField.back)
  have written := carried.imp fun _ _ field => And.intro field.name field.node.always_written
  refine ⟨some (.struct fields), named_map_written named written distinct, by simp, by simp, ?_⟩
  intro target _
  obtain ⟨results, restores, rereads⟩ := named_reread sound texts carried
  have reread := named_map_reread kind named rereads distinct target
  rw [Val.entries_rebuilt (sorted_results sorted (restores_entries_keys restores))] at reread
  exact ⟨.map results, .map restores, reread⟩

end Schema

end Marshal
