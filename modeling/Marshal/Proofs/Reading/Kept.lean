import Marshal.Proofs.Reading.Interrupted

/-!
# Documents can be read any number of times

Whatever is read from a document and wherever it stops, only the positions of arrays move. An array is
read from its first element whenever it is opened, so the positions that earlier readings have left
have no part in later ones, and each reading makes what it would have made alone.
-/

namespace Marshal

namespace Node

mutual

theorem rewound_again (node : Node) : node.rewound.rewound = node.rewound := by
  cases node with
  | struct fields => exact congrArg Node.struct (rewound_fields_again fields)
  | array items cursor => exact congrArg (Node.array · 0) (rewound_items_again items)
  | _ => rfl

theorem rewound_fields_again (fields : List (String × Node)) :
    rewoundFields (rewoundFields fields) = rewoundFields fields := by
  cases fields with
  | nil => rfl
  | cons field rest =>
      rw [rewoundFields, rewoundFields, rewound_again, rewound_fields_again rest]

theorem rewound_items_again (items : List Node) :
    rewoundItems (rewoundItems items) = rewoundItems items := by
  cases items with
  | nil => rfl
  | cons node rest => rw [rewoundItems, rewoundItems, rewound_again, rewound_items_again rest]

end

end Node

namespace Reading

variable {Target State : Type} {whole : State → Node} {state middle : State}

/-- That a reading leaves a container as it was, up to the positions of arrays. -/
def Keeps (whole : State → Node) (state : State) (reading : Reading Target State) : Prop :=
  (whole reading.source).rewound = (whole state).rewound

theorem Keeps.earlier {reading : Reading Target State} (keeps : reading.Keeps whole middle)
    (kept : (whole middle).rewound = (whole state).rewound) : reading.Keeps whole state :=
  Eq.trans keeps kept

end Reading

section Places

variable {State : Type} {site : Site State} {state : State}

theorem scalar_keeps (site : Site State) (decode : AnyValue → Except Fault Val) (target : Val)
    (state : State) : (readScalar site.inlet decode target state).Keeps site.whole state := by
  rw [Likeness.scalar_taken]
  split
  · exact site.next_kept state
  · exact site.next_kept state

/-- An optional goes on from where its content has stopped, or passes over one element. -/
theorem settle_keeps {content : Reading Val State} (keeps : content.Keeps site.whole state)
    (inner : Ty) (target : Val) :
    (settleOptional site.inlet inner target state content).Keeps site.whole state := by
  unfold settleOptional
  cases content.outcome with
  | ok done => exact keeps
  | error fault =>
      dsimp only
      split_ifs with absorbable unused
      · obtain ⟨left, skipped, kept⟩ := site.skip_kept content.source unused.2
        rw [skipped]
        exact kept.trans keeps
      · exact keeps
      · exact keeps

end Places

section Containers

variable {Item Contents : Type}

theorem read_elements_keeps {read : Slots → Reading Item Slots}
    (keeps : ∀ slots, (read slots).Keeps Node.ofSlots slots) (add : Contents → Item → Contents)
    (bound : Nat) (contents : Contents) (slots : Slots) :
    (readElements read add bound contents slots).Keeps Node.ofSlots slots := by
  induction bound generalizing contents slots with
  | zero => exact rfl
  | succ bound induction =>
      rw [readElements]
      split_ifs
      · exact rfl
      · dsimp only
        split
        · exact keeps slots
        · exact (induction _ _).earlier (keeps slots)

theorem read_entries_keeps (naming : KeyNaming) (keyType : String)
    {read : String → Fields → Reading Val Fields}
    (keeps : ∀ name fields, (read name fields).Keeps Node.struct fields) (names : List String)
    (entries : List (Val × Val)) (fields : Fields) :
    (readEntries naming keyType read names entries fields).Keeps Node.struct fields := by
  induction names generalizing entries fields with
  | nil => exact rfl
  | cons name rest induction =>
      rw [readEntries]
      split
      · exact rfl
      · dsimp only
        split
        · exact keeps name fields
        · exact (induction _ _).earlier (keeps name fields)

theorem read_record_keeps {readKey readValue : Fields → Reading Val Fields}
    (keys : ∀ fields, (readKey fields).Keeps Node.struct fields)
    (values : ∀ fields, (readValue fields).Keeps Node.struct fields) (slots : Slots) :
    (readRecord readKey readValue slots).Keeps Node.ofSlots slots := by
  rw [readRecord]
  rcases Slots.site.structs_cases slots with ⟨fault, opened, -⟩ | ⟨record, opened, found⟩
  · have opened : Slots.inlet.openStruct slots = _ := opened
    rw [opened]
    exact Slots.site.next_kept slots
  · have opened : Slots.inlet.openStruct slots = _ := opened
    rw [opened]
    dsimp only
    split
    · exact Slots.site.struct_kept found (keys record)
    · exact Slots.site.struct_kept found ((values _).earlier (keys record))

end Containers

namespace Schema

variable {schema : Schema}

section Level

variable {deeper : String → Val → Fields → Reading Val Fields}

mutual

/-- Whatever is read at a place keeps its container. The recursion follows the type. -/
theorem read_at_keeps_whole
    (structures : ∀ name target fields, (deeper name target fields).Keeps Node.struct fields)
    (type : Ty) (target : Val) {State : Type} (site : Site State) (state : State) :
    (schema.readAt deeper type target site.inlet state).Keeps site.whole state := by
  cases type with
  | primitive _ | string | textual _ | enumeration _ =>
      rw [readAt]
      exact scalar_keeps site _ target state
  | record name =>
      rw [readAt]
      rcases site.structs_cases state with ⟨fault, opened, -⟩ | ⟨child, opened, found⟩
      · rw [opened]
        exact site.next_kept state
      · rw [opened]
        exact site.struct_kept found (structures name target child)
  | option inner =>
      rw [readAt]
      split_ifs with exhausted held
      · exact rfl
      · exact settle_keeps
          (read_at_keeps_whole structures inner (schema.default inner) site state) inner target
      · obtain ⟨left, skipped, kept⟩ := site.skip_kept state (Bool.eq_false_iff.mpr exhausted)
        rw [skipped]
        exact kept
  | sequence kind item =>
      rw [readAt]
      rcases site.arrays_cases state with ⟨fault, opened, -⟩ | ⟨items, cursor, opened, found⟩
      · rw [opened]
        exact site.next_kept state
      · rw [opened]
        exact site.array_kept found (read_elements_keeps
          (read_at_keeps_whole structures item (schema.default item) Slots.site) _ _ _ _)
  | map kind keyType valueType =>
      rw [readAt]
      cases schema.keyNaming? keyType with
      | some naming =>
          dsimp only
          rcases site.structs_cases state with ⟨fault, opened, -⟩ | ⟨child, opened, found⟩
          · rw [opened]
            exact site.next_kept state
          · rw [opened]
            have values (name : String) := read_at_keeps_whole structures valueType
              (schema.default valueType) (Fields.site name)
            exact site.struct_kept found (read_entries_keeps naming keyType.name values _ _ child)
      | none =>
          dsimp only
          rcases site.arrays_cases state with ⟨fault, opened, -⟩ | ⟨items, cursor, opened, found⟩
          · rw [opened]
            exact site.next_kept state
          · rw [opened]
            have keys := read_at_keeps_whole structures keyType (schema.default keyType)
              (Fields.site keyField)
            have values := read_at_keeps_whole structures valueType (schema.default valueType)
              (Fields.site valueField)
            exact site.array_kept found
              (read_elements_keeps (read_record_keeps keys values) _ _ _ _)
  | tuple slots =>
      rw [readAt]
      rcases site.arrays_cases state with ⟨fault, opened, -⟩ | ⟨items, cursor, opened, found⟩
      · rw [opened]
        exact site.next_kept state
      · rw [opened]
        exact site.array_kept found
          (read_slots_keeps structures slots slots.length 0 target.slots ⟨items, 0⟩)
  | boxed inner =>
      rw [readAt]
      exact read_at_keeps_whole structures inner target site state

theorem read_slots_keeps
    (structures : ∀ name target fields, (deeper name target fields).Keeps Node.struct fields)
    (types : List Ty) (arity position : Nat) (targets : List Val) (slots : Slots) :
    (schema.readSlots deeper arity position types targets slots).Keeps Node.ofSlots slots := by
  cases types with
  | nil =>
      rw [readSlots]
      split_ifs <;> exact rfl
  | cons type types =>
      rw [readSlots]
      split_ifs
      · exact rfl
      · have own := read_at_keeps_whole structures type
          (targets.head?.getD (schema.default type)) Slots.site slots
        dsimp only
        split
        · exact own
        · exact (read_slots_keeps structures types arity (position + 1) targets.tail _).earlier own

end

mutual

theorem read_member_keeps
    (structures : ∀ name target fields, (deeper name target fields).Keeps Node.struct fields)
    (member : Member) (owner : Val) (fields : Fields) :
    (schema.readMember deeper owner fields member).Keeps Node.struct fields := by
  cases member with
  | field head type =>
      rw [readMember]
      exact read_at_keeps_whole structures type
        (memberValue owner head.path (schema.default type)) (Fields.site head.name) fields
  | extend head base members =>
      rw [readMember]
      exact read_members_keeps structures members
        (memberValue owner head.path (schema.structureInfo base).initial) fields

theorem read_members_keeps
    (structures : ∀ name target fields, (deeper name target fields).Keeps Node.struct fields)
    (members : List Member) (owner : Val) (fields : Fields) :
    (schema.readMembers deeper owner fields members).Keeps Node.struct fields := by
  cases members with
  | nil =>
      rw [readMembers]
      exact rfl
  | cons member rest =>
      rw [readMembers]
      have own := read_member_keeps structures member owner fields
      split
      · exact own
      · exact (read_members_keeps structures rest _ _).earlier own

end

end Level

theorem read_structure_keeps (schema : Schema) (levels : Nat) (name : String) (target : Val)
    (fields : Fields) :
    (schema.readStructure levels name target fields).Keeps Node.struct fields := by
  induction levels generalizing name target fields with
  | zero => exact rfl
  | succ levels induction =>
      rw [readStructure]
      split
      · exact rfl
      · exact read_members_keeps induction _ target fields

theorem read_named_keeps (schema : Schema) (type : Ty) (target : Val) (name : String)
    (fields : Fields) : (schema.readNamed type target name fields).Keeps Node.struct fields :=
  read_at_keeps_whole (fun name target fields => schema.read_structure_keeps _ name target fields)
    type target (Fields.site name) fields

/-- Positions of arrays have no part in what is read. -/
theorem read_named_made (schema : Schema) (type : Ty) (target : Val) (name : String)
    {fields other : Fields} (same : (Node.struct fields).rewound = (Node.struct other).rewound) :
    (schema.readNamed type target name fields).made =
      (schema.readNamed type target name other).made :=
  Likeness.made_rewound (schema.read_alike type target (Likeness.rewound.respects_field name)
    (Likeness.rewound_fields same))

end Schema

/-- What is to be read from a document: a type, the value that it is read into, and a name. -/
structure Request where
  type : Ty
  target : Val
  name : String

namespace Schema

/-- Reads one thing after the other from the same document. -/
def readInTurn (schema : Schema) : List Request → Fields → List (Except Fault Unit × Val) × Fields
  | [], fields => ([], fields)
  | request :: rest, fields =>
      let reading := schema.readNamed request.type request.target request.name fields
      let others := schema.readInTurn rest reading.source
      (reading.made :: others.1, others.2)

/-- What comes of a request by itself. -/
def readAlone (schema : Schema) (fields : Fields) (request : Request) : Except Fault Unit × Val :=
  (schema.readNamed request.type request.target request.name fields).made

theorem read_in_turn_alone (schema : Schema) (requests : List Request) {fields other : Fields}
    (same : (Node.struct fields).rewound = (Node.struct other).rewound) :
    (schema.readInTurn requests fields).1 = requests.map (schema.readAlone other) ∧
      (Node.struct (schema.readInTurn requests fields).2).rewound = (Node.struct other).rewound := by
  induction requests generalizing fields with
  | nil => exact ⟨rfl, same⟩
  | cons request rest induction =>
      have own := schema.read_named_made request.type request.target request.name same
      have kept := schema.read_named_keeps request.type request.target request.name fields
      obtain ⟨others, left⟩ := induction (kept.trans same)
      exact ⟨congrArg₂ List.cons own others, left⟩

/-- A reading from a field of a document, wherever it stops, leaves the document as it was up to the
positions of arrays, and ends as it ends for the document whose arrays all stand at their first
element. So of any readings from one document, one after the other, each makes what it makes alone. -/
theorem reading_uses_nothing_up (schema : Schema) (fields : Fields) :
    (∀ type target name,
      let reading := schema.readNamed type target name fields
      let fresh := schema.readNamed type target name (Node.rewoundFields fields)
      (Node.struct reading.source).rewound = (Node.struct fields).rewound ∧
        reading.outcome = fresh.outcome ∧ reading.target = fresh.target) ∧
    ∀ requests,
      (schema.readInTurn requests fields).1 = requests.map (schema.readAlone fields) ∧
        (Node.struct (schema.readInTurn requests fields).2).rewound =
          (Node.struct fields).rewound := by
  refine ⟨?_, fun requests => schema.read_in_turn_alone requests rfl⟩
  intro type target name reading fresh
  have rewound : (Node.struct fields).rewound = (Node.struct (Node.rewoundFields fields)).rewound :=
    congrArg Node.struct (Node.rewound_fields_again fields).symm
  have made : reading.made = fresh.made := schema.read_named_made type target name rewound
  exact ⟨schema.read_named_keeps type target name fields, congrArg Prod.fst made,
    congrArg Prod.snd made⟩

end Schema

end Marshal
