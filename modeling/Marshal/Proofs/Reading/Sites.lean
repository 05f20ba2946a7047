import Marshal.Proofs.Reading.Strides
import Marshal.Proofs.Tree.Cursors

/-!
# What reading from a place leaves of the document

A field and the next element of an array are read in the same way: a node is found there or not, it
is taken for something or refused, and what has been opened is put back with nothing but positions
changed. A fault is therefore that of finding no node, or points into the node, and points into the
container once the name or the index of the place is put before it.
-/

namespace Marshal

namespace Reading

variable {Target State : Type} {whole : State → Node} {state : State}

/-- That a reading leaves its document as it is, up to the positions of arrays, and that the fault it
fails with points into the document. -/
structure Traced (whole : State → Node) (state : State) (reading : Reading Target State) : Prop where
  kept : (whole reading.source).rewound = (whole state).rewound
  points : ∀ fault, reading.outcome = .error fault → fault.PointsInto (whole state)

/-- What comes after a reading is traced in the document that the reading has started from. -/
theorem Traced.earlier {left : State} {reading : Reading Target State}
    (traced : reading.Traced whole left) (kept : (whole left).rewound = (whole state).rewound) :
    reading.Traced whole state where
  kept := traced.kept.trans kept
  points fault failed := (traced.points fault failed).of_rewound kept

theorem Traced.after {reading : Reading Target State} (traced : reading.Traced whole state)
    (log : Log) : (reading.after log).Traced whole state := ⟨traced.kept, traced.points⟩

theorem traced_error {left : State} (kept : (whole left).rewound = (whole state).rewound)
    {fault : Fault} (points : fault.PointsInto (whole state)) (target : Target) (log : Log) :
    Traced whole state ⟨.error fault, target, left, log⟩ where
  kept := kept
  points other failed := by
    cases failed
    exact points

theorem traced_ok {left : State} (kept : (whole left).rewound = (whole state).rewound)
    (target : Target) (log : Log) : Traced whole state ⟨.ok (), target, left, log⟩ where
  kept := kept
  points fault failed := by cases failed

theorem traced_own {fault : Fault} (own : fault.IsOwn) (target : Target) (log : Log) :
    Traced whole state ⟨.error fault, target, state, log⟩ :=
  traced_error rfl (own.points_into _) target log

end Reading

namespace Node

variable {node : Node} {fault : Fault}

theorem scalar_value_own (node : Node) (fault : Fault) (refused : node.scalarValue = .error fault) :
    fault.IsOwn := by
  cases node <;> cases refused <;> exact Fault.own_of (by simp)

theorem struct_fields_own (node : Node) (fault : Fault) (refused : node.structFields = .error fault) :
    fault.IsOwn := by
  cases node <;> cases refused <;> exact Fault.own_of (by simp)

theorem array_slots_own (node : Node) (fault : Fault) (refused : node.arraySlots = .error fault) :
    fault.IsOwn := by
  cases node <;> cases refused <;> exact Fault.own_of (by simp)

theorem struct_fields_ok {fields : Fields} (opened : node.structFields = .ok fields) :
    node = .struct fields := by
  cases node <;> cases opened
  rfl

theorem array_slots_ok {slots : Slots} (opened : node.arraySlots = .ok slots) :
    ∃ items cursor, node = .array items cursor ∧ slots = ⟨items, 0⟩ := by
  cases node <;> cases opened
  exact ⟨_, _, rfl, rfl⟩

end Node

/-- A place of a document that is read from: where the node there is found, and what is left of the
document by each way of taking it. -/
structure Site (State : Type) where
  inlet : Inlet State
  /-- The container that the place is in. -/
  whole : State → Node
  found : State → Except Fault Node
  next : State → State
  value_eq : ∀ state, inlet.value state = ((found state).bind Node.scalarValue, next state)
  open_struct_eq : ∀ state,
    inlet.openStruct state = ((found state).bind Node.structFields, next state)
  open_array_eq : ∀ state,
    inlet.openArray state = ((found state).bind Node.arraySlots, next state)
  next_kept : ∀ state, (whole (next state)).rewound = (whole state).rewound
  skip_kept : ∀ state, inlet.isExhausted state = false → ∃ left, inlet.skip state = (.ok (), left) ∧
    (whole left).rewound = (whole state).rewound
  struct_kept : ∀ {state fields child}, found state = .ok (.struct fields) →
    (Node.struct child).rewound = (Node.struct fields).rewound →
      (whole (inlet.storeStruct child (next state))).rewound = (whole state).rewound
  array_kept : ∀ {state items cursor child}, found state = .ok (.array items cursor) →
    (Node.ofSlots child).rewound = (Node.array items cursor).rewound →
      (whole (inlet.storeArray child (next state))).rewound = (whole state).rewound

namespace Fields

variable {fields : Fields} {name : String} {node : Node} {fault : Fault}

theorem find_ok (found : fields.find name = .ok node) : fields.get? name = some node := by
  unfold find at found
  split at found <;> cases found
  assumption

theorem find_error (missing : fields.find name = .error fault) :
    fields.get? name = none ∧ fault = .of (.missingField name) := by
  unfold find at missing
  split at missing <;> cases missing
  exact ⟨by assumption, rfl⟩

def site (name : String) : Site Fields where
  inlet := Fields.inlet name
  whole := Node.struct
  found fields := fields.find name
  next fields := fields
  value_eq _ := rfl
  open_struct_eq _ := rfl
  open_array_eq _ := rfl
  next_kept _ := rfl
  skip_kept fields _ := ⟨fields, rfl, rfl⟩
  struct_kept found same := congrArg Node.struct (put_rewound (find_ok found) same)
  array_kept found same := congrArg Node.struct (put_rewound (find_ok found) same)

end Fields

namespace Slots

variable {slots : Slots} {node : Node} {fault : Fault}

theorem next_ok (taken : slots.next.1 = .ok node) :
    slots.items[slots.cursor]? = some node ∧ slots.next.2 = slots.advance := by
  unfold next current? at taken ⊢
  split at taken
  · rename_i own present
    cases taken
    rw [present]
    exact ⟨rfl, rfl⟩
  · cases taken

theorem next_error (missing : slots.next.1 = .error fault) :
    slots.current? = none ∧ fault = .of (.slotMissing slots.items.length slots.cursor) := by
  unfold next at missing
  split at missing <;> cases missing
  exact ⟨by assumption, rfl⟩

theorem next_kept (slots : Slots) :
    (Node.ofSlots slots.next.2).rewound = (Node.ofSlots slots).rewound := by
  unfold next
  split <;> rfl

theorem set_kept {child : Node} (taken : slots.next.1 = .ok node)
    (same : child.rewound = node.rewound) :
    (Node.ofSlots (slots.next.2.setAt (slots.next.2.cursor - 1) child)).rewound =
      (Node.ofSlots slots).rewound := by
  obtain ⟨found, next⟩ := next_ok taken
  rw [next]
  exact congrArg (Node.array · 0) (set_rewound found same)

def site : Site Slots where
  inlet := Slots.inlet
  whole := Node.ofSlots
  found slots := slots.next.1
  next slots := slots.next.2
  value_eq _ := rfl
  open_struct_eq _ := rfl
  open_array_eq _ := rfl
  next_kept := next_kept
  skip_kept slots remaining := by
    obtain ⟨node, taken⟩ := next_remaining remaining
    exact ⟨slots.advance, by simp only [inlet, taken]; rfl, rfl⟩
  struct_kept := set_kept
  array_kept := set_kept

end Slots

namespace Site

variable {Target State : Type} (site : Site State) {state : State} {fault : Fault}

/-- That a fault is that of finding no node, or points into the node that is found. -/
def Blames (state : State) (fault : Fault) : Prop :=
  site.found state = .error fault ∨ ∃ node, site.found state = .ok node ∧ fault.PointsInto node

/-- That a reading from the place leaves the container as it is, up to the positions of arrays, and
that its fault lies at the place. -/
structure Traced (state : State) (reading : Reading Target State) : Prop where
  kept : (site.whole reading.source).rewound = (site.whole state).rewound
  blames : ∀ fault, reading.outcome = .error fault → site.Blames state fault

/-- What is found is taken for something, or refused with a fault of its own. -/
theorem taken_cases {Value : Type} {take : Node → Except Fault Value}
    (own : ∀ node fault, take node = .error fault → fault.IsOwn) (state : State) :
    (∃ fault, (site.found state).bind take = .error fault ∧ site.Blames state fault) ∨
      ∃ node value, site.found state = .ok node ∧ take node = .ok value ∧
        (site.found state).bind take = .ok value := by
  cases found : site.found state with
  | error fault => exact .inl ⟨fault, rfl, .inl found⟩
  | ok node =>
      cases taken : take node with
      | error fault =>
          exact .inl ⟨fault, taken, .inr ⟨node, found, (own node fault taken).points_into node⟩⟩
      | ok value => exact .inr ⟨node, value, rfl, taken, taken⟩

theorem structs_cases (state : State) :
    (∃ fault, site.inlet.openStruct state = (.error fault, site.next state) ∧
      site.Blames state fault) ∨
      ∃ fields, site.inlet.openStruct state = (.ok fields, site.next state) ∧
        site.found state = .ok (.struct fields) := by
  rw [site.open_struct_eq]
  rcases site.taken_cases Node.struct_fields_own state with
    ⟨fault, refused, blames⟩ | ⟨node, fields, found, opened, taken⟩
  · exact .inl ⟨fault, by rw [refused], blames⟩
  · obtain rfl := Node.struct_fields_ok opened
    exact .inr ⟨fields, by rw [taken], found⟩

theorem arrays_cases (state : State) :
    (∃ fault, site.inlet.openArray state = (.error fault, site.next state) ∧
      site.Blames state fault) ∨
      ∃ items cursor, site.inlet.openArray state = (.ok ⟨items, 0⟩, site.next state) ∧
        site.found state = .ok (.array items cursor) := by
  rw [site.open_array_eq]
  rcases site.taken_cases Node.array_slots_own state with
    ⟨fault, refused, blames⟩ | ⟨node, slots, found, opened, taken⟩
  · exact .inl ⟨fault, by rw [refused], blames⟩
  · obtain ⟨items, cursor, rfl, rfl⟩ := Node.array_slots_ok opened
    exact .inr ⟨items, cursor, by rw [taken], found⟩

variable {site}

theorem traced_ok {left : State} (kept : (site.whole left).rewound = (site.whole state).rewound)
    (target : Target) (log : Log) : site.Traced state ⟨.ok (), target, left, log⟩ where
  kept := kept
  blames fault failed := by cases failed

theorem refused (blames : site.Blames state fault) (target : Target) (log : Log) :
    site.Traced state ⟨.error fault, target, site.next state, log⟩ where
  kept := site.next_kept state
  blames other failed := by
    cases failed
    exact blames

/-- What has been read from an opened struct is traced once the struct is closed. -/
theorem struct_closed {fields child : Fields} (found : site.found state = .ok (.struct fields))
    (kept : (Node.struct child).rewound = (Node.struct fields).rewound)
    {outcome : Except Fault Unit}
    (points : ∀ fault, outcome = .error fault → fault.PointsInto (.struct fields)) (target : Target)
    (log : Log) :
    site.Traced state ⟨outcome, target, site.inlet.storeStruct child (site.next state), log⟩ where
  kept := site.struct_kept found kept
  blames fault failed := .inr ⟨.struct fields, found, points fault failed⟩

theorem array_closed {Contents : Type} {items : List Node} {cursor : Nat}
    (found : site.found state = .ok (.array items cursor)) {reading : Reading Contents Slots}
    (traced : reading.Traced Node.ofSlots ⟨items, 0⟩) (target : Target) (log : Log) :
    site.Traced state
      ⟨reading.outcome, target, site.inlet.storeArray reading.source (site.next state), log⟩ where
  kept := site.array_kept found traced.kept
  blames fault failed :=
    .inr ⟨.array items cursor, found, (traced.points fault failed).of_rewound rfl⟩

theorem scalar_traced {decode : AnyValue → Except Fault Val}
    (own : ∀ source fault, decode source = .error fault → fault.IsOwn) (target : Val) :
    site.Traced state (readScalar site.inlet decode target state) := by
  rw [readScalar, site.value_eq]
  rcases site.taken_cases Node.scalar_value_own state with
    ⟨fault, refused, blames⟩ | ⟨node, source, found, -, taken⟩
  · rw [refused]
    exact Site.refused blames target []
  · rw [taken]
    dsimp only
    cases decoded : decode source with
    | error fault =>
        exact Site.refused (.inr ⟨node, found, (own source fault decoded).points_into node⟩) target []
    | ok value => exact traced_ok (site.next_kept state) value []

/-- An optional that absorbs the fault of its content has none, and passes on any other. -/
theorem settle_traced {content : Reading Val State} (traced : site.Traced state content)
    (inner : Ty) (target : Val) :
    site.Traced state (settleOptional site.inlet inner target state content) := by
  unfold settleOptional
  cases failed : content.outcome with
  | ok done => exact traced_ok traced.kept _ _
  | error fault =>
      dsimp only
      split_ifs with absorbable unused
      · obtain ⟨left, skipped, kept⟩ := site.skip_kept content.source unused.2
        rw [skipped]
        exact traced_ok (kept.trans traced.kept) _ _
      · exact traced_ok traced.kept _ _
      · refine ⟨traced.kept, fun other same => ?_⟩
        cases same
        exact traced.blames fault failed

end Site

section Containers

variable {Item Contents Target : Type}

/-- A fault at a field points into the struct when the field's name is put before it: at what the
field holds, or at the field that is missing. -/
theorem Fields.points_in_field {fields : Fields} {name : String} {fault : Fault}
    (blames : (Fields.site name).Blames fields fault) :
    (fault.inField name).PointsInto (.struct fields) := by
  rcases blames with missing | ⟨node, found, points⟩
  · obtain ⟨absent, rfl⟩ := find_error missing
    exact Fault.missing_points_into absent
  · exact points.in_field (find_ok found)

theorem Slots.points_at_index {slots : Slots} (remaining : slots.isComplete = false) {fault : Fault}
    (blames : Slots.site.Blames slots fault) :
    (fault.atIndex slots.cursor).PointsInto (Node.ofSlots slots) := by
  rcases blames with missing | ⟨node, found, points⟩
  · obtain ⟨node, taken⟩ := next_remaining remaining
    have missing : slots.next.1 = .error fault := missing
    rw [taken] at missing
    cases missing
  · exact points.at_index (next_ok found).1

/-- What is read from a field is traced in the struct once the field's name has been put before the
fault. -/
theorem Fields.traced_in_field {fields : Fields} {name : String} {reading : Reading Item Fields}
    (traced : (Fields.site name).Traced fields reading) (target : Target) (log : Log) :
    Reading.Traced Node.struct fields
      ⟨reading.outcome.mapError (Fault.inField name), target, reading.source, log⟩ where
  kept := traced.kept
  points fault failed := by
    cases outcome : reading.outcome with
    | ok done =>
        rw [outcome] at failed
        cases failed
    | error inner =>
        rw [outcome] at failed
        cases failed
        exact points_in_field (traced.blames inner outcome)

theorem read_elements_traced {read : Slots → Reading Item Slots}
    (traced : ∀ slots, Slots.site.Traced slots (read slots)) (add : Contents → Item → Contents)
    (bound : Nat) (contents : Contents) (slots : Slots) :
    (readElements read add bound contents slots).Traced Node.ofSlots slots := by
  induction bound generalizing contents slots with
  | zero => exact Reading.traced_ok rfl contents []
  | succ bound induction =>
      rw [readElements]
      split_ifs with complete
      · exact Reading.traced_ok rfl contents []
      · have own := traced slots
        dsimp only
        cases outcome : (read slots).outcome with
        | error fault =>
            exact Reading.traced_error own.kept
              (Slots.points_at_index (Bool.eq_false_iff.mpr complete) (own.blames fault outcome)) _ _
        | ok done => exact ((induction _ _).earlier own.kept).after _

theorem read_entries_traced (naming : KeyNaming) (keyType : String)
    {read : String → Fields → Reading Val Fields}
    (traced : ∀ name fields, (Fields.site name).Traced fields (read name fields))
    (names : List String) (entries : List (Val × Val)) (fields : Fields) :
    (readEntries naming keyType read names entries fields).Traced Node.struct fields := by
  induction names generalizing entries fields with
  | nil => exact Reading.traced_ok rfl entries []
  | cons name rest induction =>
      rw [readEntries]
      cases naming.ofName? name with
      | none => exact Reading.traced_own (Fault.own_of (by simp)) entries []
      | some key =>
          have own := traced name fields
          dsimp only
          cases outcome : (read name fields).outcome with
          | error fault =>
              exact Reading.traced_error own.kept
                (Fields.points_in_field (own.blames fault outcome)) _ _
          | ok done => exact ((induction _ _).earlier own.kept).after _

theorem read_record_traced {readKey readValue : Fields → Reading Val Fields}
    (keys : ∀ fields, (Fields.site keyField).Traced fields (readKey fields))
    (values : ∀ fields, (Fields.site valueField).Traced fields (readValue fields)) (slots : Slots) :
    Slots.site.Traced slots (readRecord readKey readValue slots) := by
  rw [readRecord]
  rcases Slots.site.structs_cases slots with ⟨fault, opened, blames⟩ | ⟨record, opened, found⟩
  · have opened : Slots.inlet.openStruct slots = _ := opened
    rw [opened]
    exact Site.refused blames _ []
  · have opened : Slots.inlet.openStruct slots = _ := opened
    rw [opened]
    dsimp only
    have key := keys record
    cases outcome : (readKey record).outcome with
    | error fault =>
        apply Site.struct_closed found key.kept
        intro other failed
        cases failed
        exact Fields.points_in_field (key.blames fault outcome)
    | ok done =>
        have value := Fields.traced_in_field (values (readKey record).source) () []
        have value := value.earlier key.kept
        exact Site.struct_closed found value.kept value.points _ _

end Containers

end Marshal
