import Marshal.Proofs.Reading.Levels
import Marshal.Proofs.Value.Formed

/-!
# Structures and tuples are read portion by portion

Each member of a structure is read from the document as it was at first, and so is each slot of a
tuple: what has been read before is not looked at again. So reading one in place is filling portions
of the target, one after the other, from a document that does not change.
-/

namespace Marshal

/-- What a reading answers and makes of its target. -/
def Reading.made {Target State : Type} (reading : Reading Target State) : Except Fault Unit × Target :=
  (reading.outcome, reading.target)

theorem Reading.Same.made_eq {Target Left Right : Type} {left : Reading Target Left}
    {right : Reading Target Right} (same : left.Same right) : left.made = right.made := by
  rw [made, made, same.outcome, same.target]

namespace Schema

variable {schema : Schema}

/-- Reading a place, as a step on the target. -/
def fill (schema : Schema) (type : Ty) {State : Type} (inlet : Inlet State) (state : State) :
    Step Val := fun target => (schema.read type target inlet state).made

section Missing

/-- Nothing is made of a field that is missing, but an optional is then left out. -/
theorem read_at_missing (deeper : String → Val → Fields → Reading Val Fields) (type : Ty)
    (target : Val) {name : String} {fields : Fields} (missing : fields.get? name = none) :
    schema.readAt deeper type target (Fields.inlet name) fields =
      if type.isOptional then ⟨.ok (), .absent, fields, []⟩
      else ⟨.error (.of (.missingField name)), target, fields, []⟩ := by
  have absent : fields.find name = .error (.of (.missingField name)) := by rw [Fields.find, missing]
  have empty : fields.holds name = false := by rw [Fields.holds, missing]
  have structs : (Fields.inlet name).openStruct fields =
      (.error (.of (.missingField name)), fields) := by simp only [Fields.inlet, absent, Except.bind]
  have arrays : (Fields.inlet name).openArray fields =
      (.error (.of (.missingField name)), fields) := by simp only [Fields.inlet, absent, Except.bind]
  have scalar (decode : AnyValue → Except Fault Val) :
      readScalar (Fields.inlet name) decode target fields =
        ⟨.error (.of (.missingField name)), target, fields, []⟩ := by
    simp only [readScalar, Fields.inlet, absent, Except.bind]
  cases type with
  | primitive primitive =>
      rw [readAt]
      exact scalar _
  | string =>
      rw [readAt]
      exact scalar _
  | textual name =>
      rw [readAt]
      exact scalar _
  | enumeration name =>
      rw [readAt]
      exact scalar _
  | record name =>
      rw [readAt, structs]
      rfl
  | option inner =>
      rw [readAt]
      simp only [Fields.inlet, empty]
      rfl
  | sequence kind item =>
      rw [readAt, arrays]
      rfl
  | map kind key value =>
      rw [readAt, structs, arrays]
      cases schema.keyNaming? key <;> rfl
  | tuple types =>
      rw [readAt, arrays]
      rfl
  | boxed inner =>
      rw [readAt]
      exact read_at_missing deeper inner target missing

end Missing

/-- What is read from a field goes by what the field holds. -/
theorem named_same (schema : Schema) (type : Ty) (target : Val) {name : String} {left right : Fields}
    (same : left.get? name = right.get? name) :
    (schema.readNamed type target name left).made = (schema.readNamed type target name right).made := by
  cases shown : right.get? name with
  | none =>
      rw [readNamed, readNamed, read, read, read_at_missing _ type target (same.trans shown),
        read_at_missing _ type target shown]
      split <;> rfl
  | some node =>
      have leftShows : (Fields.place name).Shows left (some node) := same.trans shown
      have rightShows : (Fields.place name).Shows right (some node) := shown
      exact (read_at_same schema.readObject type target (Fields.place_passable name)
        (Fields.place_passable name) leftShows rightShows).made_eq

/-- Reading a field leaves all other fields. -/
theorem named_keeps (type : Ty) (target : Val) (name : String) (fields : Fields) {other : String}
    (different : other ≠ name) :
    (schema.readNamed type target name fields).source.get? other = fields.get? other := by
  cases shown : fields.get? name with
  | none =>
      rw [readNamed, read, read_at_missing _ type target shown]
      split <;> rfl
  | some node =>
      have shows : (Fields.place name).Shows fields (some node) := shown
      exact read_at_keeps schema.readObject type target (Fields.place_passable name) shows other
        different

section Members

/-- The portion of a structure that a plain member is read into. -/
def memberPortion (schema : Schema) (fields : Fields) (leaf : Leaf) : Portion where
  trail := leaf.path.map Segment.field
  fallback := schema.default leaf.type
  step := (schema.fill leaf.type (Fields.inlet leaf.name) fields).inField leaf.name

theorem read_leaf_filled (schema : Schema) (ids : String → FieldId) (leaf : Leaf) (owner : Val)
    {fields left : Fields} (same : left.get? leaf.name = fields.get? leaf.name) :
    (schema.readMember schema.readObject owner left (leaf.member ids)).made =
      (schema.memberPortion fields leaf).filled owner := by
  have made := schema.named_same leaf.type
    (memberValue owner leaf.path (schema.default leaf.type)) same
  simp only [readNamed, read, Reading.made, Prod.mk.injEq] at made
  simp only [Leaf.member, Leaf.head, readMember, Reading.made, Portion.filled, memberPortion,
    Step.inField, Step.map_fault_eq, fill, read, Val.at_fields, Val.set_overwrite, made.1, made.2]
  rfl

theorem read_leaf_keeps (ids : String → FieldId) (leaf : Leaf) (owner : Val) (fields : Fields)
    {other : String} (different : other ≠ leaf.name) :
    (schema.readMember schema.readObject owner fields (leaf.member ids)).source.get? other =
      fields.get? other := by
  simp only [Leaf.member, Leaf.head, readMember]
  exact named_keeps leaf.type _ leaf.name fields different

/-- Members that are written under names of their own are read from the fields as they were at
first. -/
theorem read_leaves_filled (ids : String → FieldId) {leaves : List Leaf}
    (distinct : (leaves.map Leaf.name).Nodup) (owner : Val) {fields left : Fields}
    (same : ∀ leaf ∈ leaves, left.get? leaf.name = fields.get? leaf.name) :
    (schema.readMembers schema.readObject owner left (leaves.map (Leaf.member ids))).made =
      Step.all ((leaves.map (schema.memberPortion fields)).map Portion.filled) owner := by
  induction leaves generalizing owner left with
  | nil =>
      simp only [List.map_nil, readMembers]
      rfl
  | cons leaf rest induction =>
      rw [List.forall_mem_cons] at same
      simp only [List.map_cons, List.nodup_cons] at distinct
      have own := schema.read_leaf_filled ids leaf owner same.1
      have kept (other : Leaf) (inside : other ∈ rest) :
          (schema.readMember schema.readObject owner left (leaf.member ids)).source.get? other.name =
            fields.get? other.name := by
        have different : other.name ≠ leaf.name := fun equal =>
          distinct.1 (equal ▸ List.mem_map_of_mem inside)
        rw [read_leaf_keeps ids leaf owner left different, same.2 other inside]
      have further := induction distinct.2
        (schema.readMember schema.readObject owner left (leaf.member ids)).target kept
      simp only [List.map_cons, read_members_cons, Step.all_cons, Step.andThen, ← own]
      rcases first : schema.readMember schema.readObject owner left (leaf.member ids) with
        ⟨_ | _, target, source, log⟩
      · rfl
      · rw [first] at further
        exact further

/-- Members are read by filling the portions of their plain members, one after the other. -/
theorem read_members_filled (sound : schema.Sound) {name : String} {members : List Member}
    (reach : schema.MembersSound name members)
    (distinct : ((Member.leavesAll members).map Leaf.name).Nodup) {target : Val}
    (formed : schema.Formed (.record name) target) (fields : Fields) :
    (schema.readMembers schema.readObject target fields members).made =
      Step.all (((Member.leavesAll members).map (schema.memberPortion fields)).map Portion.filled)
        target := by
  let ids : String → FieldId := fun name => ⟨0, name, .string⟩
  have inlined : schema.readMembers schema.readObject target fields
      ((Member.leavesAll members).map (Leaf.member ids)) =
        schema.readMembers schema.readObject target fields members := read_members_inlined
    schema.readObject sound (object_overwrites sound) members reach formed.shaped formed.whole fields
  rw [← inlined]
  exact read_leaves_filled ids distinct target fun _ _ => rfl

theorem read_object_filled (sound : schema.Sound) (assembled : schema.Assembled) {name : String}
    {members : List Member} (declared : (schema.structureInfo name).members = .ok members)
    {target : Val} (formed : schema.Formed (.record name) target) (fields : Fields) :
    (schema.readObject name target fields).made =
      Step.all (((schema.leaves name).map (schema.memberPortion fields)).map Portion.filled)
        target := by
  have distinct := leaves_distinct sound name
  rw [leaves_declared declared] at distinct ⊢
  rw [read_object_eq assembled, declared]
  exact read_members_filled sound (members_sound sound declared) distinct formed fields

end Members

section Tuples

/-- The portion of a tuple that the element at the same position is read into. -/
def slotPortion (schema : Schema) (nodes : List Node) (slot : Ty × Nat) : Portion where
  trail := [.index slot.2]
  fallback := schema.default slot.1
  step := (schema.fill slot.1 Slots.inlet ⟨nodes, slot.2⟩).mapFault (Fault.atIndex slot.2)

/-- The slots of a tuple that there are elements for, each with its position. -/
def slotsFrom (types : List Ty) (count position : Nat) : List (Ty × Nat) :=
  (types.take (count - position)).zipIdx position

theorem mem_slots_from {types : List Ty} {count position : Nat} {type : Ty} :
    (type, position) ∈ slotsFrom types count 0 ↔ types[position]? = some type ∧ position < count := by
  rw [slotsFrom, List.mem_zipIdx_iff_getElem?, List.getElem?_take]
  simp [and_comm]

/-- A tuple is to have as many slots as there are elements. -/
def tupleEnd (arity count : Nat) : Step Val :=
  if count < arity then .fail (.of (.tupleEnded arity count))
  else if arity < count then .fail (.of (.tupleContinues arity))
  else .done

/-- What is read from an element goes by the element alone. -/
theorem next_same (schema : Schema) (type : Ty) (target : Val) {left right : Slots} {node : Node}
    (leftCurrent : left.current? = some node) (rightCurrent : right.current? = some node) :
    (schema.readNext type target left).made = (schema.readNext type target right).made :=
  (read_at_same schema.readObject type target Slots.place_passable Slots.place_passable leftCurrent
    rightCurrent).made_eq

theorem next_keeps (schema : Schema) (type : Ty) (target : Val) {slots : Slots} {node : Node}
    (current : slots.current? = some node) :
    Slots.place.Keeps slots (schema.readNext type target slots).source :=
  read_at_keeps schema.readObject type target Slots.place_passable current

theorem slot_filled (schema : Schema) (type : Ty) (target : Val) {slots : Slots} {nodes : List Node}
    {node : Node} (here : slots.current? = some node) {before : List Val}
    (current : nodes[before.length]? = some node) (targets : List Val) :
    (schema.slotPortion nodes (type, before.length)).filled (.tuple (before ++ target :: targets)) =
      ((schema.readNext type target slots).outcome.mapError (Fault.atIndex before.length),
        .tuple (before ++ [(schema.readNext type target slots).target] ++ targets)) := by
  have there : (Slots.mk nodes before.length).current? = some node := current
  have made := schema.next_same type target here there
  have found : (Val.tuple (before ++ target :: targets)).at? [.index before.length] = some target := by
    simp [Val.at?, Val.part?]
  simp only [readNext, Reading.made, Prod.mk.injEq] at made
  simp only [Portion.filled, slotPortion, found, Option.getD_some, Step.map_fault_eq, fill,
    Reading.made, readNext, made]
  simp [Val.overwrite, Val.part?, Val.replacePart]

/-- The slots from a position on are filled where they lie in the whole tuple. -/
theorem read_slots_filled {types : List Ty} {arity : Nat} {nodes : List Node} {slots : Slots}
    {targets before : List Val} (all : arity = before.length + types.length)
    (within : before.length ≤ nodes.length) (cursor : slots.cursor = before.length)
    (size : slots.items.length = nodes.length)
    (same : ∀ other, before.length ≤ other → slots.items[other]? = nodes[other]?)
    (fits : targets.length = types.length) :
    let reading := schema.readSlots schema.readObject arity before.length types targets slots
    (reading.outcome, Val.tuple (before ++ reading.target)) =
      ((Step.all (((slotsFrom types nodes.length before.length).map (schema.slotPortion nodes)).map
        Portion.filled)).andThen (tupleEnd arity nodes.length)) (.tuple (before ++ targets)) := by
  have complete : slots.isComplete = decide (nodes.length ≤ before.length) := by
    rw [Slots.isComplete, cursor, size]
  induction types generalizing slots targets before with
  | nil =>
      rw [List.length_nil, Nat.add_zero] at all
      subst all
      rw [readSlots, complete, slotsFrom, List.take_nil, List.zipIdx_nil, tupleEnd]
      by_cases ended : nodes.length ≤ before.length
      · rw [if_pos (decide_eq_true ended), if_neg (by omega), if_neg (by omega)]
        rfl
      · rw [if_neg (by simpa using ended), if_neg (by omega), if_pos (by omega)]
        rfl
  | cons type types induction =>
      obtain ⟨target, targets, rfl⟩ :=
        List.exists_cons_of_length_pos (by simp [fits] : 0 < targets.length)
      simp only [List.length_cons, Nat.add_right_cancel_iff] at fits all
      rw [readSlots, complete]
      by_cases ended : nodes.length ≤ before.length
      · have last : nodes.length = before.length := by omega
        rw [if_pos (decide_eq_true ended), slotsFrom, last, Nat.sub_self, tupleEnd,
          if_pos (by omega)]
        rfl
      · have current : nodes[before.length]? = some nodes[before.length] :=
          List.getElem?_eq_getElem (by omega)
        have here : slots.current? = some nodes[before.length] := by
          rw [Slots.current?, cursor, same _ le_rfl, current]
        have own := schema.slot_filled type target here current targets
        obtain ⟨moved, length, later⟩ := schema.next_keeps type target here
        have portions : slotsFrom (type :: types) nodes.length before.length =
            (type, before.length) :: slotsFrom types nodes.length (before.length + 1) := by
          rw [slotsFrom, show nodes.length - before.length =
            nodes.length - (before.length + 1) + 1 by omega]
          rfl
        have further (result : Val) := @induction (schema.readNext type target slots).source targets
          (before ++ [result]) (by simp; omega) (by simp; omega) (by simp [moved, cursor])
          (length.trans size)
          (fun other after => by
            rw [List.length_append, List.length_singleton] at after
            rw [later other (by omega), same other (by omega)])
          fits
          (by rw [Slots.isComplete, moved, length, cursor, size, List.length_append]; rfl)
        simp only [List.length_append, List.length_singleton, List.append_assoc,
          List.singleton_append] at further own
        rw [if_neg (by simpa using ended), portions]
        simp only [List.head?_cons, Option.getD_some, List.tail_cons, List.map_cons, Step.all_cons,
          Step.and_then_assoc]
        rw [Step.andThen, own]
        simp only [readNext, read] at further ⊢
        rcases first : schema.readAt schema.readObject type target Slots.inlet slots with
          ⟨_ | _, result, source, log⟩
        · rfl
        · rw [first] at further
          exact further result

/-- A tuple is read by filling its slots, one after the other, as far as there are elements. -/
theorem read_tuple_filled {types : List Ty} {targets : List Val} (fits : targets.length = types.length)
    {State : Type} {inlet : Inlet State} {state next : State} {nodes : List Node}
    (opened : inlet.openArray state = (.ok ⟨nodes, 0⟩, next)) :
    (schema.read (.tuple types) (.tuple targets) inlet state).made =
      ((Step.all (((slotsFrom types nodes.length 0).map (schema.slotPortion nodes)).map
        Portion.filled)).andThen (tupleEnd types.length nodes.length)) (.tuple targets) := by
  have read := @read_slots_filled schema types types.length nodes ⟨nodes, 0⟩ targets []
    (by simp) (Nat.zero_le _) rfl rfl (fun _ _ => rfl) fits
  rw [Schema.read, readAt, opened]
  exact read

end Tuples

end Schema

end Marshal
