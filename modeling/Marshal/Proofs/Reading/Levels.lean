import Marshal.Proofs.Reading.Trails

/-!
# Levels make no difference

Structures are read on as many levels as their document is deep, and reading a document does not make
it deeper. More levels change nothing, so the members of a structure are read as values of their own
are.
-/

namespace Marshal

namespace Node

mutual

theorem depth_rewound (node : Node) : node.rewound.depth = node.depth := by
  cases node with
  | struct fields => rw [rewound, depth, depth, depth_rewound_fields]
  | array items cursor => rw [rewound, depth, depth, depth_rewound_items]
  | _ => rfl

theorem depth_rewound_fields (fields : List (String × Node)) :
    depthFields (rewoundFields fields) = depthFields fields := by
  cases fields with
  | nil => rfl
  | cons field rest =>
      rw [rewoundFields, depthFields, depthFields, depth_rewound field.2, depth_rewound_fields rest]

theorem depth_rewound_items (items : List Node) :
    depthItems (rewoundItems items) = depthItems items := by
  cases items with
  | nil => rfl
  | cons node rest =>
      rw [rewoundItems, depthItems, depthItems, depth_rewound node, depth_rewound_items rest]

end

/-- Reading makes a document neither deeper nor less deep. -/
theorem depth_kept {left right : Node} (kept : left.rewound = right.rewound) :
    left.depth = right.depth := by
  rw [← depth_rewound left, kept, depth_rewound]

end Node

/-- That what is found at a place lies inside of the container. -/
def Site.FindsInside {State : Type} (site : Site State) : Prop :=
  ∀ {state node}, site.found state = .ok node → node.depth < (site.whole state).depth

theorem Fields.site_finds_inside (name : String) : (Fields.site name).FindsInside := by
  intro fields node found
  exact Nat.lt_succ_of_le (Node.depth_field (find_ok found))

theorem Slots.site_finds_inside : Slots.site.FindsInside := by
  intro slots node found
  exact Nat.lt_succ_of_le (Node.depth_item (List.mem_of_getElem? (next_ok found).1))

section Containers

variable {Item Contents : Type} {bound : Nat}

/-- Two ways of reading elements that agree on shallow arrays read the same of one. -/
theorem read_elements_congr {read other : Slots → Reading Item Slots}
    (same : ∀ slots, (Node.ofSlots slots).depth ≤ bound → read slots = other slots)
    (traced : ∀ slots, Slots.site.Traced slots (other slots)) (add : Contents → Item → Contents)
    (count : Nat) (contents : Contents) {slots : Slots} (shallow : (Node.ofSlots slots).depth ≤ bound) :
    readElements read add count contents slots = readElements other add count contents slots := by
  induction count generalizing contents slots with
  | zero => rfl
  | succ count induction =>
      have kept := Node.depth_kept (traced slots).kept
      rw [readElements, readElements, same slots shallow]
      split_ifs
      · rfl
      · dsimp only
        cases (other slots).outcome with
        | error fault => rfl
        | ok done => exact congrArg (Reading.after _) (induction _ (kept.trans_le shallow))

theorem read_entries_congr (naming : KeyNaming) (keyType : String)
    {read other : String → Fields → Reading Val Fields}
    (same : ∀ name fields, (Node.struct fields).depth ≤ bound → read name fields = other name fields)
    (traced : ∀ name fields, (Fields.site name).Traced fields (other name fields))
    (names : List String) (entries : List (Val × Val)) {fields : Fields}
    (shallow : (Node.struct fields).depth ≤ bound) :
    readEntries naming keyType read names entries fields =
      readEntries naming keyType other names entries fields := by
  induction names generalizing entries fields with
  | nil => rfl
  | cons name rest induction =>
      have kept := Node.depth_kept (traced name fields).kept
      rw [readEntries, readEntries, same name fields shallow]
      cases naming.ofName? name with
      | none => rfl
      | some key =>
          dsimp only
          cases (other name fields).outcome with
          | error fault => rfl
          | ok done => exact congrArg (Reading.after _) (induction _ (kept.trans_le shallow))

theorem read_record_congr {readKey otherKey readValue otherValue : Fields → Reading Val Fields}
    (keys : ∀ fields, (Node.struct fields).depth ≤ bound → readKey fields = otherKey fields)
    (values : ∀ fields, (Node.struct fields).depth ≤ bound → readValue fields = otherValue fields)
    (traced : ∀ fields, (Fields.site keyField).Traced fields (otherKey fields)) {slots : Slots}
    (shallow : (Node.ofSlots slots).depth ≤ bound) :
    readRecord readKey readValue slots = readRecord otherKey otherValue slots := by
  rw [readRecord, readRecord]
  rcases Slots.site.structs_cases slots with ⟨fault, opened, -⟩ | ⟨record, opened, found⟩
  · have opened : Slots.inlet.openStruct slots = _ := opened
    rw [opened]
  · have opened : Slots.inlet.openStruct slots = _ := opened
    have inside := (Slots.site_finds_inside found).le.trans shallow
    have kept := Node.depth_kept (traced record).kept
    rw [opened]
    dsimp only
    rw [keys record inside, values _ (kept.trans_le inside)]

end Containers

namespace Schema

variable {schema : Schema} {deeper : String → Val → Fields → Reading Val Fields} {bound : Nat}

section Level

mutual

/-- What structures are read by matters up to the depth of the document only. The recursion follows
the type. -/
theorem read_at_shallow (assembled : schema.Assembled)
    (agree : ∀ fields, (Node.struct fields).depth ≤ bound → ∀ name target,
      deeper name target fields = schema.readObject name target fields)
    (type : Ty) (target : Val) {State : Type} {site : Site State}
    (inside : site.FindsInside) {state : State} (shallow : (site.whole state).depth ≤ bound + 1) :
    schema.readAt deeper type target site.inlet state = schema.read type target site.inlet state := by
  rw [read]
  cases type with
  | primitive scalar => rw [readAt, readAt]
  | string => rw [readAt, readAt]
  | textual name => rw [readAt, readAt]
  | enumeration name => rw [readAt, readAt]
  | record name =>
      rw [readAt, readAt]
      rcases site.structs_cases state with ⟨fault, opened, -⟩ | ⟨child, opened, found⟩
      · rw [opened]
      · have below := inside found
        rw [opened]
        dsimp only
        rw [agree child (by omega)]
  | option inner =>
      rw [readAt, readAt, read_at_shallow assembled agree inner _ inside shallow, read]
  | sequence kind item =>
      have itemsSame (slots : Slots) (shallow : (Node.ofSlots slots).depth ≤ bound + 1) :
          schema.readAt deeper item (schema.default item) Slots.inlet slots =
            schema.readNext item (schema.default item) slots :=
        read_at_shallow assembled agree item (schema.default item) Slots.site_finds_inside shallow
      have itemsTraced (slots : Slots) :=
        read_traced assembled item (schema.default item) Slots.site slots
      rw [readAt, readAt]
      rcases site.arrays_cases state with ⟨fault, opened, -⟩ | ⟨items, cursor, opened, found⟩
      · rw [opened]
      · have below : (Node.ofSlots ⟨items, 0⟩).depth ≤ bound + 1 := (inside found).le.trans shallow
        rw [opened]
        dsimp only
        rw [read_elements_congr itemsSame itemsTraced _ _ _ below]
        rfl
  | map kind keyType valueType =>
      have valuesSame (name : String) (fields : Fields)
          (shallow : (Node.struct fields).depth ≤ bound + 1) :
          schema.readAt deeper valueType (schema.default valueType) (Fields.inlet name) fields =
            schema.readNamed valueType (schema.default valueType) name fields :=
        read_at_shallow assembled agree valueType (schema.default valueType)
          (Fields.site_finds_inside name) shallow
      have valuesTraced (name : String) (fields : Fields) :=
        read_traced assembled valueType (schema.default valueType) (Fields.site name) fields
      rw [readAt, readAt]
      cases schema.keyNaming? keyType with
      | some naming =>
          dsimp only
          rcases site.structs_cases state with ⟨fault, opened, -⟩ | ⟨child, opened, found⟩
          · rw [opened]
          · have below := (inside found).le.trans shallow
            rw [opened]
            dsimp only
            rw [read_entries_congr naming _ valuesSame valuesTraced _ _ below]
            rfl
      | none =>
          have keysSame (fields : Fields) (shallow : (Node.struct fields).depth ≤ bound + 1) :
              schema.readAt deeper keyType (schema.default keyType) (Fields.inlet keyField) fields =
                schema.readNamed keyType (schema.default keyType) keyField fields :=
            read_at_shallow assembled agree keyType (schema.default keyType)
              (Fields.site_finds_inside keyField) shallow
          have keysTraced (fields : Fields) :=
            read_traced assembled keyType (schema.default keyType) (Fields.site keyField) fields
          have recordsTraced := read_record_traced keysTraced (valuesTraced valueField)
          dsimp only
          rcases site.arrays_cases state with ⟨fault, opened, -⟩ | ⟨items, cursor, opened, found⟩
          · rw [opened]
          · have below : (Node.ofSlots ⟨items, 0⟩).depth ≤ bound + 1 :=
              (inside found).le.trans shallow
            rw [opened]
            dsimp only
            rw [read_elements_congr (fun slots shallow =>
              read_record_congr keysSame (valuesSame valueField) keysTraced shallow) recordsTraced
              _ _ _ below]
            rfl
  | tuple slots =>
      rw [readAt, readAt]
      rcases site.arrays_cases state with ⟨fault, opened, -⟩ | ⟨items, cursor, opened, found⟩
      · rw [opened]
      · have below : (Node.ofSlots ⟨items, 0⟩).depth ≤ bound + 1 := (inside found).le.trans shallow
        rw [opened]
        dsimp only
        rw [read_slots_shallow assembled agree slots _ _ _ below]
  | boxed inner =>
      rw [readAt, readAt]
      exact read_at_shallow assembled agree inner target inside shallow

theorem read_slots_shallow (assembled : schema.Assembled)
    (agree : ∀ fields, (Node.struct fields).depth ≤ bound → ∀ name target,
      deeper name target fields = schema.readObject name target fields)
    (types : List Ty) (arity position : Nat) (targets : List Val)
    {slots : Slots} (shallow : (Node.ofSlots slots).depth ≤ bound + 1) :
    schema.readSlots deeper arity position types targets slots =
      schema.readSlots schema.readObject arity position types targets slots := by
  cases types with
  | nil => rw [readSlots, readSlots]
  | cons type types =>
      have own := read_at_shallow assembled agree type (targets.head?.getD (schema.default type))
        Slots.site_finds_inside shallow
      have kept := Node.depth_kept (read_traced assembled type
        (targets.head?.getD (schema.default type)) Slots.site slots).kept
      simp only [Slots.site] at own kept
      rw [readSlots, readSlots, own]
      split_ifs
      · rfl
      · dsimp only
        rw [read_slots_shallow assembled agree types _ _ _ (kept.trans_le shallow)]
        rfl

end

mutual

theorem read_member_shallow (assembled : schema.Assembled)
    (agree : ∀ fields, (Node.struct fields).depth ≤ bound → ∀ name target,
      deeper name target fields = schema.readObject name target fields)
    (member : Member) (owner : Val) {fields : Fields}
    (shallow : (Node.struct fields).depth ≤ bound + 1) :
    schema.readMember deeper owner fields member =
      schema.readMember schema.readObject owner fields member := by
  cases member with
  | field head type =>
      have own := read_at_shallow assembled agree type
        (memberValue owner head.path (schema.default type)) (Fields.site_finds_inside head.name)
        shallow
      simp only [Fields.site] at own
      rw [readMember, readMember, own]
      rfl
  | extend head base members =>
      rw [readMember, readMember, read_members_shallow assembled agree members _ shallow]

theorem read_members_shallow (assembled : schema.Assembled)
    (agree : ∀ fields, (Node.struct fields).depth ≤ bound → ∀ name target,
      deeper name target fields = schema.readObject name target fields)
    (members : List Member) (owner : Val) {fields : Fields}
    (shallow : (Node.struct fields).depth ≤ bound + 1) :
    schema.readMembers deeper owner fields members =
      schema.readMembers schema.readObject owner fields members := by
  cases members with
  | nil => rw [readMembers, readMembers]
  | cons member rest =>
      have kept := Node.depth_kept
        (read_member_traced assembled (object_traced assembled) member owner fields).kept
      rw [readMembers, readMembers, read_member_shallow assembled agree member owner shallow]
      split
      · rfl
      · rw [read_members_shallow assembled agree rest _ (kept.trans_le shallow)]

end

end Level

/-- More levels than a document is deep change nothing. The induction is on how deep it may be. -/
theorem read_structure_enough (assembled : schema.Assembled) {levels : Nat} {fields : Fields}
    (enough : (Node.struct fields).depth ≤ levels) (name : String) (target : Val) :
    schema.readStructure levels name target fields = schema.readObject name target fields := by
  induction bounded : (Node.struct fields).depth using Nat.strong_induction_on
    generalizing levels fields name target with
  | _ depth induction =>
      rw [readObject, bounded]
      obtain ⟨bound, rfl⟩ : ∃ bound, depth = bound + 1 := ⟨_, bounded.symm⟩
      obtain ⟨further, rfl⟩ : ∃ further, levels = further + 1 :=
        Nat.exists_eq_add_one_of_ne_zero (by omega)
      have agree {own : Nat} (enough : bound ≤ own) (child : Fields)
          (shallow : (Node.struct child).depth ≤ bound) (name : String) (target : Val) :
          schema.readStructure own name target child = schema.readObject name target child :=
        induction _ (by omega) (shallow.trans enough) name target rfl
      rw [readStructure, readStructure]
      cases (schema.structureInfo name).members with
      | error fault => rfl
      | ok members =>
          dsimp only
          rw [read_members_shallow assembled (agree (by omega)) members target bounded.le,
            read_members_shallow assembled (agree le_rfl) members target bounded.le]

/-- The members of a structure are read as values of their own are. -/
theorem read_object_eq (assembled : schema.Assembled) (name : String) (target : Val)
    (fields : Fields) :
    schema.readObject name target fields =
      match (schema.structureInfo name).members with
      | .error fault => ⟨.error fault, target, fields, []⟩
      | .ok members => schema.readMembers schema.readObject target fields members := by
  have agree (child : Fields) (shallow : (Node.struct child).depth ≤ Node.depthFields fields)
      (name : String) (target : Val) : schema.readStructure (Node.depthFields fields) name target child =
        schema.readObject name target child := read_structure_enough assembled shallow name target
  rw [readObject, Node.depth, readStructure]
  cases (schema.structureInfo name).members with
  | error fault => rfl
  | ok members => exact read_members_shallow assembled agree members target le_rfl

end Schema

end Marshal
