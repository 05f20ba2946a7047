import Marshal.Proofs.Reading.Alike
import Marshal.Proofs.Reading.Elements
import Marshal.Proofs.Reading.Portions
import Marshal.Proofs.Value.Order

/-!
# Containers that are not read to their end

Sequences and maps are refilled element by element. Where one of the elements fails, what has been
read before it stays: an item for each element, and of each key the entry that was read last. Each of
these is what its element is read as in the document as it was at first.
-/

namespace Marshal

namespace Node

theorem rewound_fields_eq {left right : Fields} :
    rewoundFields left = rewoundFields right ↔
      List.Forall₂ (fun first second => first.1 = second.1 ∧ first.2.rewound = second.2.rewound)
        left right := by
  induction left generalizing right with
  | nil => cases right <;> simp [rewoundFields]
  | cons field rest induction => cases right <;> simp [rewoundFields, induction]

theorem rewound_items_eq {left right : List Node} :
    rewoundItems left = rewoundItems right ↔
      List.Forall₂ (fun first second => first.rewound = second.rewound) left right := by
  induction left generalizing right with
  | nil => cases right <;> simp [rewoundItems]
  | cons node rest induction => cases right <;> simp [rewoundItems, induction]

theorem scalar_value_rewound (node : Node) : node.rewound.scalarValue = node.scalarValue := by
  cases node <;> rfl

theorem scalar_value_kept {left right : Node} (kept : left.rewound = right.rewound) :
    left.scalarValue = right.scalarValue := by
  rw [← scalar_value_rewound left, kept, scalar_value_rewound]

end Node

/-- Documents that differ in the positions of their arrays only. -/
def Likeness.rewound : Likeness where
  nodes left right := left.rewound = right.rewound
  faults := Eq
  fault_refl _ := rfl
  absorbable same := congrArg Fault.isAbsorbable same
  in_field same name := congrArg (Fault.inField name) same
  at_index same position := congrArg (Fault.atIndex position) same
  null {left right} same := by cases left <;> cases right <;> first | rfl | cases same
  depth := Node.depth_kept
  numbers same scalar := by
    rw [Node.scalar_value_kept same]
    exact .refl (fun _ => rfl) _
  texts same := by
    rw [Node.scalar_value_kept same]
    exact .refl (fun _ => rfl) _
  structs {left right} same := by
    cases left <;> cases right <;> first
      | exact .ok (Node.rewound_fields_eq.mp (Node.struct.inj same))
      | exact .error rfl
      | cases same
  arrays {left right} same := by
    cases left <;> cases right <;> first
      | exact .ok ⟨Node.rewound_items_eq.mp (Node.array.inj same).1, rfl⟩
      | exact .error rfl
      | cases same
  struct fields := congrArg Node.struct (Node.rewound_fields_eq.mpr fields)
  array items _ _ := congrArg (Node.array · 0) (Node.rewound_items_eq.mpr items)

namespace Likeness

variable {Target State : Type} {states : State → State → Prop} {left right : Reading Target State}

/-- Positions of arrays have no part in faults. -/
theorem made_rewound (alike : rewound.ReadingsAlike states left right) : left.made = right.made := by
  rw [Reading.made, Reading.made]
  refine Prod.ext ?_ alike.target
  rcases alike.outcome.either with ⟨_, _, first, second, same⟩ | ⟨_, _, first, second, same⟩
  · exact first.trans ((congrArg _ same).trans second.symm)
  · exact first.trans ((congrArg _ same).trans second.symm)

theorem rewound_fields {left right : Fields}
    (kept : (Node.struct left).rewound = (Node.struct right).rewound) : rewound.fields left right :=
  Node.rewound_fields_eq.mp (Node.struct.inj kept)

end Likeness

section Elements

variable {Item Contents : Type} {read : Slots → Reading Item Slots}

/-- Where an element fails, there is an item for each element before it. -/
theorem read_elements_failed (reads : ReadsElement read) (add : Contents → Item → Contents)
    {nodes : List Node} {bound position : Nat} {slots : Slots} (cursor : slots.cursor = position)
    (size : slots.items.length = nodes.length)
    (same : ∀ other, position ≤ other → slots.items[other]? = nodes[other]?) {contents : Contents}
    {fault : Fault} (failed : (readElements read add bound contents slots).outcome = .error fault) :
    ∃ (items : List Item) (inner : Fault),
      (readElements read add bound contents slots).target = items.foldl add contents ∧
      (∀ (index : Nat) item, items[index]? = some item →
        (read ⟨nodes, position + index⟩).made = (.ok (), item)) ∧
      (read ⟨nodes, position + items.length⟩).outcome = .error inner ∧
      fault = inner.atIndex (position + items.length) := by
  induction bound generalizing position slots contents with
  | zero => cases failed
  | succ bound induction =>
      rw [readElements] at failed ⊢
      split_ifs at failed ⊢ with complete
      have inside : position < nodes.length := by
        simpa [Slots.isComplete, cursor, size] using complete
      have there : (Slots.mk nodes position).current? = some nodes[position] :=
        List.getElem?_eq_getElem inside
      have here : slots.current? = some nodes[position] := by
        rw [Slots.current?, cursor, same _ le_rfl]
        exact there
      have alike := reads.same here there
      obtain ⟨moved, length, later⟩ := reads.keeps here
      dsimp only at failed ⊢
      cases first : (read slots).outcome with
      | error inner =>
          rw [first] at failed
          cases failed
          exact ⟨[], inner, rfl, by simp, alike.outcome.symm.trans first, by rw [cursor]; rfl⟩
      | ok done =>
          rw [first] at failed
          obtain ⟨items, inner, target, parts, stopped, located⟩ :=
            @induction (position + 1) (read slots).source (by rw [moved, cursor])
              (length.trans size)
              (fun other after => by rw [later other (by omega), same other (by omega)]) _ failed
          simp only [Nat.add_right_comm position 1] at parts stopped located
          refine ⟨(read slots).target :: items, inner, target, ?_, stopped, located⟩
          intro index item known
          cases index with
          | zero =>
              cases known
              rw [Nat.add_zero, ← alike.made_eq, Reading.made, first]
          | succ index => exact parts index item known

/-- An array that is read from its first element. -/
theorem read_array_failed (reads : ReadsElement read) (add : Contents → Item → Contents)
    {nodes : List Node} {contents : Contents} {fault : Fault}
    (failed : (readElements read add nodes.length contents ⟨nodes, 0⟩).outcome = .error fault) :
    ∃ (items : List Item) (inner : Fault),
      (readElements read add nodes.length contents ⟨nodes, 0⟩).target = items.foldl add contents ∧
      (∀ (index : Nat) item, items[index]? = some item →
        (read ⟨nodes, index⟩).made = (.ok (), item)) ∧
      (read ⟨nodes, items.length⟩).outcome = .error inner ∧ fault = inner.atIndex items.length := by
  simpa only [Nat.zero_add] using
    @read_elements_failed _ _ _ reads add nodes _ 0 _ rfl rfl (fun _ _ => rfl) _ _ failed

theorem reads_record (readKey readValue : Fields → Reading Val Fields) :
    ReadsElement (readRecord readKey readValue) where
  keeps {slots node} current := by
    have shows : Slots.place.Shows slots (some node) := current
    have opened := Slots.place.open_struct_eq shows
    simp only [readRecord, show Slots.inlet.openStruct slots = _ from opened]
    cases node.structFields with
    | error fault => exact Slots.place.next_keeps shows
    | ok record =>
        dsimp only
        split <;> exact Slots.place.struct_keeps _ shows
  same {left right node} leftCurrent rightCurrent := by
    have leftShows : Slots.place.Shows left (some node) := leftCurrent
    have rightShows : Slots.place.Shows right (some node) := rightCurrent
    have leftOpened := Slots.place.open_struct_eq leftShows
    have rightOpened := Slots.place.open_struct_eq rightShows
    simp only [readRecord, show Slots.inlet.openStruct left = _ from leftOpened,
      show Slots.inlet.openStruct right = _ from rightOpened]
    cases node.structFields with
    | error fault => exact ⟨rfl, rfl, rfl⟩
    | ok record =>
        dsimp only
        split <;> exact ⟨rfl, rfl, rfl⟩

end Elements

namespace Schema

variable {schema : Schema}

/-- What fields are read as does not depend on the positions of arrays. -/
theorem named_rewound (schema : Schema) (type : Ty) (target : Val) (name : String)
    {left right : Fields} (kept : (Node.struct left).rewound = (Node.struct right).rewound) :
    (schema.readNamed type target name left).made =
      (schema.readNamed type target name right).made :=
  Likeness.made_rewound (schema.read_alike type target (Likeness.rewound.respects_field name)
    (Likeness.rewound_fields kept))

/-- That a field is read as an entry of a map, its name being the key. -/
def ReadsEntry (schema : Schema) (naming : KeyNaming) (valueType : Ty) (fields : Fields)
    (name : String) (entry : Val × Val) : Prop :=
  ∃ key, naming.ofName? name = some key ∧ entry.1 = .text key ∧
    (schema.readNamed valueType (schema.default valueType) name fields).made = (.ok (), entry.2)

/-- That a field is not read as an entry, since its name is no key or its value cannot be read. -/
inductive RefusesEntry (schema : Schema) (naming : KeyNaming) (keyType valueType : Ty)
    (fields : Fields) (name : String) : Fault → Prop
  | key (unreadable : naming.ofName? name = none) :
      RefusesEntry schema naming keyType valueType fields name
        (.of (.keyNotReadable name keyType.name))
  | value {key : String} {fault : Fault} (readable : naming.ofName? name = some key)
      (failed : (schema.readNamed valueType (schema.default valueType) name fields).outcome =
        .error fault) :
      RefusesEntry schema naming keyType valueType fields name (fault.inField name)

/-- Where a field fails, there is an entry for each field before it. -/
theorem read_entries_failed (assembled : schema.Assembled) (naming : KeyNaming)
    (keyType valueType : Ty) {fields left : Fields}
    (kept : (Node.struct left).rewound = (Node.struct fields).rewound) {names : List String}
    {entries : List (Val × Val)} {fault : Fault}
    (failed : (readEntries naming keyType.name
      (schema.readNamed valueType (schema.default valueType)) names entries left).outcome =
        .error fault) :
    ∃ before name after added, names = before ++ name :: after ∧
      List.Forall₂ (schema.ReadsEntry naming valueType fields) before added ∧
      schema.RefusesEntry naming keyType valueType fields name fault ∧
      (readEntries naming keyType.name (schema.readNamed valueType (schema.default valueType)) names
        entries left).target =
          added.foldl (fun entries entry => Val.insertEntry entries entry.1 entry.2) entries := by
  induction names generalizing entries left with
  | nil => cases failed
  | cons name rest induction =>
      have same := schema.named_rewound valueType (schema.default valueType) name kept
      have traced := read_traced assembled valueType (schema.default valueType) (Fields.site name) left
      rw [readEntries] at failed ⊢
      cases readable : naming.ofName? name with
      | none =>
          rw [readable] at failed
          cases failed
          exact ⟨[], name, rest, [], rfl, .nil, .key readable, rfl⟩
      | some key =>
          rw [readable] at failed
          dsimp only at failed ⊢
          cases first : (schema.readNamed valueType (schema.default valueType) name left).outcome with
          | error inner =>
              rw [first] at failed
              cases failed
              rw [Reading.made, first] at same
              exact ⟨[], name, rest, [], rfl, .nil,
                .value readable (congrArg Prod.fst same).symm, rfl⟩
          | ok done =>
              rw [first] at failed
              rw [Reading.made, first] at same
              obtain ⟨before, other, after, added, rfl, read, refused, target⟩ :=
                induction (traced.kept.trans kept) failed
              exact ⟨name :: before, other, after, (.text key, _) :: added, rfl,
                .cons ⟨key, readable, rfl, same.symm⟩ read, refused, target⟩

end Schema

end Marshal
