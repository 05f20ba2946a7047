import Marshal.Proofs.Reading.Strides
import Marshal.Proofs.RoundTrip.Values
import Marshal.Settings.Map

/-!
# Elements are decoded from their own slots

A reading from a document's array goes by the element whose turn it is and moves past that element
alone, whatever its outcome. So what a sequence or a tuple has been read as stands slot by slot for
the elements of the array.
-/

namespace Marshal

/-- A reading that goes by the next element alone and leaves the elements after it. -/
structure ReadsElement {Item : Type} (read : Slots → Reading Item Slots) : Prop where
  keeps : ∀ {slots node}, slots.current? = some node → Slots.place.Keeps slots (read slots).source
  same : ∀ {left right node}, left.current? = some node → right.current? = some node →
    (read left).Same (read right)

section Sequences

variable {Item Contents : Type} {read : Slots → Reading Item Slots}

theorem ReadsElement.yields (reads : ReadsElement read) {slots : Slots} {node : Node}
    (current : slots.current? = some node) (outcome : (read slots).outcome = .ok ())
    (other : Slots) (otherCurrent : other.current? = some node) :
    (read other).Yields (read slots).target (Slots.place.Keeps other) := by
  have same := reads.same otherCurrent current
  exact ⟨same.outcome.trans outcome, same.target, reads.keeps otherCurrent⟩

/-- What elements have been read as consists of an item for each of them. -/
theorem read_elements_parts (reads : ReadsElement read) (add : Contents → Item → Contents)
    {nodes : List Node} {bound : Nat} (enough : nodes.length ≤ bound) {slots : Slots}
    (remaining : slots.items.drop slots.cursor = nodes) {contents : Contents}
    (outcome : (readElements read add bound contents slots).outcome = .ok ()) :
    ∃ items, (readElements read add bound contents slots).target = items.foldl add contents ∧
      List.Forall₂ (fun node item => ∀ slots : Slots, slots.current? = some node →
        (read slots).Yields item (Slots.place.Keeps slots)) nodes items := by
  induction nodes generalizing bound slots contents with
  | nil =>
      refine ⟨[], ?_, .nil⟩
      cases bound with
      | zero => rfl
      | succ bound =>
          rw [readElements, complete_of_drop remaining]
          rfl
  | cons node nodes induction =>
      obtain ⟨bound, rfl⟩ := Nat.exists_eq_add_of_le' (Nat.one_le_of_lt enough)
      have current := current_of_drop remaining
      rw [readElements, incomplete_of_drop remaining] at outcome ⊢
      simp only [Bool.false_eq_true, if_false] at outcome ⊢
      cases first : (read slots).outcome with
      | error fault =>
          rw [first] at outcome
          cases outcome
      | ok done =>
          rw [first] at outcome
          have further := drop_of_keeps (reads.keeps current) remaining
          obtain ⟨items, target, parts⟩ :=
            induction (Nat.le_of_succ_le_succ enough) further outcome
          exact ⟨(read slots).target :: items, target, .cons (reads.yields current first) parts⟩

end Sequences

namespace Schema

variable (schema : Schema) (deeper : String → Val → Fields → Reading Val Fields)

theorem reads_element (type : Ty) (target : Val) :
    ReadsElement fun slots => schema.readAt deeper type target Slots.inlet slots where
  keeps current := read_at_keeps deeper type target Slots.place_passable current
  same left right :=
    read_at_same deeper type target Slots.place_passable Slots.place_passable left right

/-- Where no element is left, nothing is used up. -/
theorem read_at_complete (type : Ty) (target : Val) {slots : Slots}
    (complete : slots.isComplete = true) :
    (schema.readAt deeper type target Slots.inlet slots).source = slots := by
  have taken := Slots.next_complete complete
  have scalar (decode : AnyValue → Except Fault Val) :
      (readScalar Slots.inlet decode target slots).source = slots := by
    simp only [readScalar, Slots.inlet, taken, Except.bind]
  have structs : ∃ fault, Slots.inlet.openStruct slots = (.error fault, slots) := by
    simp only [Slots.inlet, taken, Except.bind]
    exact ⟨_, rfl⟩
  have arrays : ∃ fault, Slots.inlet.openArray slots = (.error fault, slots) := by
    simp only [Slots.inlet, taken, Except.bind]
    exact ⟨_, rfl⟩
  obtain ⟨noStruct, structFailed⟩ := structs
  obtain ⟨noArray, arrayFailed⟩ := arrays
  cases type with
  | primitive primitive =>
      rw [readAt]
      exact scalar _
  | string =>
      rw [readAt]
      exact scalar _
  | textual name =>
      rw [readAt]
      exact scalar _
  | enumeration name =>
      rw [readAt]
      exact scalar _
  | record name => rw [readAt, structFailed]
  | option inner =>
      have exhausted : Slots.inlet.isExhausted slots = true := complete
      rw [readAt, if_pos exhausted]
  | sequence kind item => rw [readAt, arrayFailed]
  | map kind key value =>
      rw [readAt]
      cases schema.keyNaming? key with
      | some naming =>
          dsimp only
          rw [structFailed]
      | none =>
          dsimp only
          rw [arrayFailed]
  | tuple types => rw [readAt, arrayFailed]
  | boxed inner =>
      rw [readAt]
      exact read_at_complete inner target complete

/-- Every reading moves past one element, if there is one. -/
theorem read_at_cursor (type : Ty) (target : Val) {slots : Slots}
    (remaining : slots.isComplete = false) :
    (schema.readAt deeper type target Slots.inlet slots).source.cursor = slots.cursor + 1 := by
  simp only [Slots.isComplete, decide_eq_false_iff_not, Nat.not_le] at remaining
  exact (read_at_keeps deeper type target Slots.place_passable
    (List.getElem?_eq_getElem remaining)).1

theorem read_sequence_parts {kind : SequenceKind} {item : Ty} {target : Val} {State : Type}
    {inlet : Inlet State} {state next : State} {nodes : List Node}
    (opened : inlet.openArray state = (.ok ⟨nodes, 0⟩, next))
    (outcome : (schema.readAt deeper (.sequence kind item) target inlet state).outcome = .ok ()) :
    ∃ items, (schema.readAt deeper (.sequence kind item) target inlet state).target = .list items ∧
      List.Forall₂ (fun node value => ∀ slots : Slots, slots.current? = some node →
        (schema.readAt deeper item (schema.default item) Slots.inlet slots).Yields value
          (Slots.place.Keeps slots)) nodes items := by
  rw [readAt, opened] at outcome ⊢
  have remaining : List.drop (Slots.mk nodes 0).cursor (Slots.mk nodes 0).items = nodes := rfl
  obtain ⟨items, read, parts⟩ := read_elements_parts
    (schema.reads_element deeper item (schema.default item))
    (fun items element => items ++ [element]) (le_refl nodes.length) remaining outcome
  exact ⟨items, congrArg Val.list (read.trans (foldl_append_items items [])), parts⟩

/-- Slots are read to the end of the array, each from the element that its turn has come to. -/
theorem read_slots_parts {arity position : Nat} {types : List Ty} {targets : List Val}
    {slots : Slots}
    (outcome : (schema.readSlots deeper arity position types targets slots).outcome = .ok ()) :
    types.length = (slots.items.drop slots.cursor).length ∧
      ∀ (index : Nat) (type : Ty) (node : Node), types[index]? = some type →
        (slots.items.drop slots.cursor)[index]? = some node →
          ∃ value, (schema.readSlots deeper arity position types targets slots).target[index]? =
              some value ∧
            ∀ slots : Slots, slots.current? = some node →
              (schema.readAt deeper type (targets[index]?.getD (schema.default type)) Slots.inlet
                slots).Yields value (Slots.place.Keeps slots) := by
  induction types generalizing position targets slots with
  | nil =>
      rw [readSlots] at outcome
      split_ifs at outcome with complete
      simp only [Slots.isComplete, decide_eq_true_eq] at complete
      refine ⟨?_, by simp⟩
      rw [List.length_nil, List.length_drop]
      omega
  | cons type types induction =>
      rw [readSlots] at outcome ⊢
      split_ifs at outcome ⊢ with complete
      dsimp only at outcome ⊢
      obtain ⟨node, nodes, remaining⟩ :
          ∃ node nodes, slots.items.drop slots.cursor = node :: nodes := by
        apply List.exists_cons_of_length_pos
        simp only [Slots.isComplete, decide_eq_true_eq, Nat.not_le] at complete
        rw [List.length_drop]
        omega
      have current := current_of_drop remaining
      have reads := schema.reads_element deeper type (targets.head?.getD (schema.default type))
      rw [remaining]
      cases first : (schema.readAt deeper type (targets.head?.getD (schema.default type)) Slots.inlet
          slots).outcome with
      | error fault =>
          rw [first] at outcome
          cases outcome
      | ok done =>
          rw [first] at outcome
          obtain ⟨size, parts⟩ := induction outcome
          rw [drop_of_keeps (reads.keeps current) remaining] at size parts
          refine ⟨congrArg (· + 1) size, ?_⟩
          intro index other otherNode known shown
          cases index with
          | zero =>
              cases known
              cases shown
              refine ⟨_, rfl, ?_⟩
              rw [← List.head?_eq_getElem?]
              exact reads.yields current first
          | succ index =>
              have other := parts index other otherNode known shown
              rw [List.getElem?_tail] at other
              exact other

end Schema

namespace Entries

theorem read_at_cursor (schema : Schema) (entries : Entries) {slots : Slots}
    (remaining : slots.isComplete = false) :
    (entries.readAt schema Slots.inlet slots).source.cursor = slots.cursor + 1 := by
  obtain ⟨node, taken⟩ := Slots.next_remaining remaining
  simp only [readAt, Slots.inlet, taken, Except.bind]
  cases node.structFields with
  | error fault => rfl
  | ok child => rfl

theorem read_at_complete (schema : Schema) (entries : Entries) {slots : Slots}
    (complete : slots.isComplete = true) :
    (entries.readAt schema Slots.inlet slots).source = slots := by
  simp only [readAt, Slots.inlet, Slots.next_complete complete, Except.bind]

end Entries

namespace Schema

/-- Reading one value from a document's array moves past one element, whatever the outcome, and past
none where none is left. An optional that has been read from any striding source has used up one
element. So the items of a sequence that has been read stand one by one for the elements of the
array, and a tuple is read only from an array with an element for each of its slots. -/
theorem elements_read_from_own_slots (schema : Schema) :
    (∀ type target (slots : Slots),
      (slots.isComplete = false →
        (schema.readNext type target slots).source.cursor = slots.cursor + 1) ∧
      (slots.isComplete = true → (schema.readNext type target slots).source = slots)) ∧
    (∀ (entries : Entries) (slots : Slots),
      (slots.isComplete = false →
        (entries.readAt schema Slots.inlet slots).source.cursor = slots.cursor + 1) ∧
      (slots.isComplete = true → (entries.readAt schema Slots.inlet slots).source = slots)) ∧
    (∀ {State : Type} (inlet : Inlet State), inlet.Striding → ∀ inner target state,
      inlet.isExhausted state = false →
        (schema.read (.option inner) target inlet state).outcome = .ok () →
          inlet.position (schema.read (.option inner) target inlet state).source =
            inlet.position state + 1) ∧
    ∀ {State : Type} (inlet : Inlet State) state nodes next,
      inlet.openArray state = (.ok ⟨nodes, 0⟩, next) →
        (∀ kind item target,
          (schema.read (.sequence kind item) target inlet state).outcome = .ok () →
            ∃ items, (schema.read (.sequence kind item) target inlet state).target = .list items ∧
              items.length = nodes.length ∧
                ∀ (position : Nat) value, items[position]? = some value →
                  (schema.readNext item (schema.default item) ⟨nodes, position⟩).Yields value
                    (Slots.place.Keeps ⟨nodes, position⟩)) ∧
        ∀ types target, (schema.read (.tuple types) target inlet state).outcome = .ok () →
          types.length = nodes.length ∧
            ∀ (position : Nat) type, types[position]? = some type →
              ∃ value, (schema.read (.tuple types) target inlet state).target.slots[position]? =
                  some value ∧
                (schema.readNext type (target.slots[position]?.getD (schema.default type))
                  ⟨nodes, position⟩).Yields value (Slots.place.Keeps ⟨nodes, position⟩) := by
  refine ⟨?_, ?_, ?_, ?_⟩
  · intro type target slots
    exact ⟨schema.read_at_cursor schema.readObject type target,
      schema.read_at_complete schema.readObject type target⟩
  · intro entries slots
    exact ⟨entries.read_at_cursor schema, entries.read_at_complete schema⟩
  · intro State inlet striding inner target state remaining outcome
    have strides := schema.read_at_strides schema.readObject (.option inner) target striding remaining
    have outcome : (schema.readAt schema.readObject (.option inner) target inlet state).outcome =
        .ok () := outcome
    rw [outcome] at strides
    exact strides.moved
  · intro State inlet state nodes next opened
    constructor
    · intro kind item target outcome
      obtain ⟨items, read, parts⟩ := schema.read_sequence_parts schema.readObject opened outcome
      refine ⟨items, read, parts.length_eq.symm, ?_⟩
      intro position value known
      obtain ⟨inside, rfl⟩ := List.getElem?_eq_some_iff.mp known
      exact parts.get (parts.length_eq ▸ inside) inside ⟨nodes, position⟩
        (List.getElem?_eq_getElem _)
    · intro types target outcome
      have read : schema.read (.tuple types) target inlet state =
          schema.readAt schema.readObject (.tuple types) target inlet state := rfl
      rw [read] at outcome ⊢
      rw [readAt, opened] at outcome ⊢
      obtain ⟨size, parts⟩ := schema.read_slots_parts schema.readObject outcome
      refine ⟨size, ?_⟩
      intro position type known
      obtain ⟨inside, -⟩ := List.getElem?_eq_some_iff.mp known
      have within : position < nodes.length := size ▸ inside
      obtain ⟨value, found, yields⟩ := parts position type nodes[position] known
        (List.getElem?_eq_getElem within)
      exact ⟨value, found, yields ⟨nodes, position⟩ (List.getElem?_eq_getElem _)⟩

/-- A source that refuses texts in place: an optional passes over one of them and then reads an
array of optionals, slot by slot. -/
theorem elements_read_from_own_slots_strict :
    let inlet := Slots.strictInlet (.of (.scalarExpected .text))
    let late : Ty := .option (.primitive (.int .i32))
    let slots : Slots := ⟨[.text "late", .array [.uint 4, .null] 1], 0⟩
    let nodes : List Node := [.uint 4, .null]
    inlet.Striding ∧ inlet.isExhausted slots = false ∧
      (empty.read late .absent inlet slots).outcome = .ok () ∧
        inlet.position (empty.read late .absent inlet slots).source = 1 ∧
          inlet.openArray slots.advance = (.ok ⟨nodes, 0⟩, slots.advance.advance) ∧
            (empty.read (.sequence .vector late) (.list []) inlet slots.advance).outcome = .ok () ∧
              ∃ items, (empty.read (.sequence .vector late) (.list []) inlet slots.advance).target =
                .list items ∧ items.length = 2 := by
  intro inlet late slots nodes
  obtain ⟨-, -, optionals, containers⟩ := elements_read_from_own_slots empty
  have striding : inlet.Striding := Slots.strict_inlet_striding _
  have passed : (empty.read late .absent inlet slots).outcome = .ok () := by decide +kernel
  have moved := optionals inlet striding (.primitive (.int .i32)) .absent slots rfl passed
  have opened : inlet.openArray slots.advance = (.ok ⟨nodes, 0⟩, slots.advance.advance) := rfl
  have read : (empty.read (.sequence .vector late) (.list []) inlet slots.advance).outcome =
      .ok () := by decide +kernel
  obtain ⟨sequences, -⟩ := containers inlet slots.advance nodes _ opened
  obtain ⟨items, target, size, -⟩ := sequences .vector late (.list []) read
  exact ⟨striding, rfl, passed, moved, opened, read, items, target, size⟩

end Schema

end Marshal
