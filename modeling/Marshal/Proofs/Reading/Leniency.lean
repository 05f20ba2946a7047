import Marshal.Proofs.Reading.Trails
import Marshal.Proofs.Value.Exact

/-!
# Optionals make reading lenient

What can go wrong in reading is that something is missing or of the wrong kind, is another type of
value, or is out of range: the document is to blame. Only a broken declaration gives a fault that an
optional passes on. Where all declarations are in order, an optional is therefore always read, and
holds something exactly where its content can be read.
-/

namespace Marshal

/-- Whether faults of a kind are for what a document holds. -/
def FaultKind.isDocument : FaultKind → Bool
  | .structural | .typeMismatch | .range => true
  | .declaration | .lookup | .format => false

/-- That a result fails, if at all, for what a document holds. -/
def DocumentFails {Value : Type} (result : Except Fault Value) : Prop :=
  ∀ fault, result = .error fault → fault.kind.isDocument = true

section Results

variable {Value Other : Type} {result : Except Fault Value}

theorem document_fails_error {fault : Fault} (kind : fault.kind.isDocument = true) :
    DocumentFails (.error fault : Except Fault Value) := by
  intro other failed
  cases failed
  exact kind

theorem document_fails_ok (value : Value) : DocumentFails (.ok value) := nofun

namespace DocumentFails

/-- The fault that is passed on is one that the first result has failed with. -/
theorem passed (fails : DocumentFails result) {fault : Fault} (failed : result = .error fault) :
    DocumentFails (.error fault : Except Fault Other) :=
  document_fails_error (fails fault failed)

theorem bind (fails : DocumentFails result) {take : Value → Except Fault Other}
    (further : ∀ value, DocumentFails (take value)) : DocumentFails (result.bind take) := by
  cases result with
  | error fault => exact fails.passed rfl
  | ok value => exact further value

theorem map (fails : DocumentFails result) (make : Value → Other) :
    DocumentFails (result.map make) := by
  cases result with
  | error fault => exact fails.passed rfl
  | ok value => exact document_fails_ok _

/-- Locating a fault leaves it of its kind. -/
theorem map_error (fails : DocumentFails result) {change : Fault → Fault}
    (kept : ∀ fault, (change fault).kind = fault.kind) : DocumentFails (result.mapError change) := by
  cases result with
  | error fault => exact document_fails_error ((kept fault).symm ▸ fails fault rfl)
  | ok value => exact document_fails_ok value

theorem in_field (fails : DocumentFails result) (name : String) :
    DocumentFails (result.mapError (Fault.inField name)) := fails.map_error fun _ => rfl

theorem absorbable (fails : DocumentFails result) {fault : Fault} (failed : result = .error fault) :
    fault.isAbsorbable = true := by
  have kind := fails fault failed
  unfold Fault.isAbsorbable
  cases known : fault.kind <;> simp_all [FaultKind.isDocument]

end DocumentFails

end Results

section Decoding

theorem Node.scalar_value_fails (node : Node) : DocumentFails node.scalarValue := by
  cases node with
  | struct fields => exact document_fails_error rfl
  | array items cursor => exact document_fails_error rfl
  | _ => exact document_fails_ok _

theorem Node.struct_fields_fails (node : Node) : DocumentFails node.structFields := by
  cases node with
  | struct fields => exact document_fails_ok fields
  | _ => exact document_fails_error rfl

theorem Node.array_slots_fails (node : Node) : DocumentFails node.arraySlots := by
  cases node with
  | array items cursor => exact document_fails_ok _
  | _ => exact document_fails_error rfl

theorem AnyValue.get_fails (source : AnyValue) (type : Ty) :
    DocumentFails (source.getOrFault type) := by
  unfold getOrFault get
  split
  · exact document_fails_error rfl
  · split_ifs
    · exact document_fails_ok _
    · exact document_fails_error rfl

theorem Primitive.narrow_fails (scalar : Primitive) (source : AnyValue) :
    DocumentFails (scalar.narrow source) := by
  cases scalar with
  | bool =>
      rw [narrow]
      split
      · exact document_fails_ok _
      · exact document_fails_error rfl
  | int kind =>
      rw [narrow, narrowInt]
      split
      · split_ifs
        · exact document_fails_ok _
        · exact document_fails_error rfl
      · exact document_fails_error rfl
  | single =>
      rw [narrow]
      split
      · split_ifs
        · exact document_fails_error rfl
        · exact document_fails_ok _
      · exact document_fails_error rfl
  | double =>
      rw [narrow]
      split
      · exact document_fails_ok _
      · exact document_fails_error rfl

/-- A name that a table does not know is the document's; that there is no table is not. -/
theorem EnumerationInfo.code_fails {info : EnumerationInfo} {table : EnumTable Int}
    (declared : info.table = .ok table) (name : String) : DocumentFails (info.codeOf name) := by
  unfold codeOf
  rw [declared]
  dsimp only
  split
  · exact document_fails_ok _
  · exact document_fails_error rfl

end Decoding

namespace Site

variable {State : Type} {site : Site State}

/-- That nothing is found at a place only for want of it in the document. -/
def FindsOrMisses (site : Site State) : Prop := ∀ state, DocumentFails (site.found state)

theorem structs_fail (finds : site.FindsOrMisses) (state : State) :
    DocumentFails (site.inlet.openStruct state).1 := by
  rw [site.open_struct_eq]
  exact (finds state).bind Node.struct_fields_fails

theorem arrays_fail (finds : site.FindsOrMisses) (state : State) :
    DocumentFails (site.inlet.openArray state).1 := by
  rw [site.open_array_eq]
  exact (finds state).bind Node.array_slots_fails

theorem scalar_fails (finds : site.FindsOrMisses) {decode : AnyValue → Except Fault Val}
    (decodes : ∀ source, DocumentFails (decode source)) (target : Val) (state : State) :
    DocumentFails (readScalar site.inlet decode target state).outcome := by
  rw [readScalar, site.value_eq]
  have taken := (finds state).bind Node.scalar_value_fails
  cases value : (site.found state).bind Node.scalarValue with
  | error fault => exact taken.passed value
  | ok source =>
      dsimp only
      cases decoded : decode source with
      | error fault => exact (decodes source).passed decoded
      | ok value => exact document_fails_ok ()

/-- An optional is always read where only the document can be to blame for its content. -/
theorem settle_ok {content : Reading Val State} (fails : DocumentFails content.outcome) (inner : Ty)
    (target : Val) (state : State) :
    (settleOptional site.inlet inner target state content).outcome = .ok () ∧
      (settleOptional site.inlet inner target state content).target =
        match content.outcome with
        | .ok () => .present content.target
        | .error _ => .absent := by
  unfold settleOptional
  cases failed : content.outcome with
  | ok done => exact ⟨rfl, rfl⟩
  | error fault =>
      dsimp only
      rw [if_pos (fails.absorbable failed)]
      split_ifs with unused
      · obtain ⟨left, skipped, -⟩ := site.skip_kept content.source unused.2
        rw [skipped]
        exact ⟨rfl, rfl⟩
      · exact ⟨rfl, rfl⟩

end Site

theorem Fields.site_finds (name : String) : (Fields.site name).FindsOrMisses := by
  intro fields
  simp only [Fields.site, find]
  split
  · exact document_fails_ok _
  · exact document_fails_error rfl

theorem Fields.holds_iff (fields : Fields) (name : String) :
    fields.holds name = true ↔ ∃ node, fields.get? name = some node ∧ node ≠ .null := by
  unfold holds
  cases fields.get? name with
  | none => simp
  | some node => cases node <;> simp [Node.isNull]

theorem Slots.current_holds_iff (slots : Slots) :
    slots.currentHolds = true ↔ ∃ node, slots.current? = some node ∧ node ≠ .null := by
  unfold currentHolds
  cases slots.current? with
  | none => simp
  | some node => cases node <;> simp [Node.isNull]

theorem Slots.site_finds : Slots.site.FindsOrMisses := by
  intro slots
  simp only [Slots.site, next]
  split
  · exact document_fails_ok _
  · exact document_fails_error rfl

section Containers

variable {Item Contents : Type}

theorem read_elements_fails {read : Slots → Reading Item Slots}
    (fails : ∀ slots, DocumentFails (read slots).outcome) (add : Contents → Item → Contents)
    (bound : Nat) (contents : Contents) (slots : Slots) :
    DocumentFails (readElements read add bound contents slots).outcome := by
  induction bound generalizing contents slots with
  | zero => exact document_fails_ok ()
  | succ bound induction =>
      rw [readElements]
      split_ifs
      · exact document_fails_ok ()
      · dsimp only
        cases failed : (read slots).outcome with
        | error fault => exact document_fails_error (fails slots fault failed)
        | ok done => exact induction _ _

theorem read_entries_fails (naming : KeyNaming) (keyType : String)
    {read : String → Fields → Reading Val Fields}
    (fails : ∀ name fields, DocumentFails (read name fields).outcome) (names : List String)
    (entries : List (Val × Val)) (fields : Fields) :
    DocumentFails (readEntries naming keyType read names entries fields).outcome := by
  induction names generalizing entries fields with
  | nil => exact document_fails_ok ()
  | cons name rest induction =>
      rw [readEntries]
      cases naming.ofName? name with
      | none => exact document_fails_error rfl
      | some key =>
          dsimp only
          cases failed : (read name fields).outcome with
          | error fault => exact document_fails_error (fails name fields fault failed)
          | ok done => exact induction _ _

theorem read_record_fails {readKey readValue : Fields → Reading Val Fields}
    (keys : ∀ fields, DocumentFails (readKey fields).outcome)
    (values : ∀ fields, DocumentFails (readValue fields).outcome) (slots : Slots) :
    DocumentFails (readRecord readKey readValue slots).outcome := by
  have opens : DocumentFails (Slots.inlet.openStruct slots).1 :=
    Site.structs_fail Slots.site_finds slots
  rw [readRecord]
  cases opened : Slots.inlet.openStruct slots with
  | mk outcome next =>
      rw [opened] at opens
      cases outcome with
      | error fault => exact opens.passed rfl
      | ok record =>
          dsimp only
          cases failed : (readKey record).outcome with
          | error fault => exact document_fails_error (keys record fault failed)
          | ok done => exact (values _).in_field valueField

end Containers

namespace Schema

variable {schema : Schema}

/-- That all structures and enumerations that the values of a type are made of have been declared
without fault. -/
structure DeclaredThrough (schema : Schema) (type : Ty) : Prop where
  members : ∀ name, schema.Part type (.record name) →
    ∃ members, (schema.structureInfo name).members = .ok members
  table : ∀ name, schema.Part type (.enumeration name) →
    ∃ table, (schema.enumerationInfo name).table = .ok table

theorem DeclaredThrough.direct {type part : Ty} (declared : schema.DeclaredThrough type)
    (direct : schema.Direct type part) : schema.DeclaredThrough part where
  members name inside := declared.members name (.head direct inside)
  table name inside := declared.table name (.head direct inside)

section Level

variable {deeper : String → Val → Fields → Reading Val Fields}

mutual

/-- The recursion follows the type; structures are left to the level below. -/
theorem read_at_fails
    (structures : ∀ name target fields, schema.DeclaredThrough (.record name) →
      DocumentFails (deeper name target fields).outcome)
    (type : Ty) (declared : schema.DeclaredThrough type) (target : Val) {State : Type}
    {site : Site State} (finds : site.FindsOrMisses) (state : State) :
    DocumentFails (schema.readAt deeper type target site.inlet state).outcome := by
  have structs := Site.structs_fail finds state
  have arrays := Site.arrays_fail finds state
  cases type with
  | primitive scalar =>
      rw [readAt]
      exact Site.scalar_fails finds scalar.narrow_fails target state
  | string =>
      rw [readAt]
      exact Site.scalar_fails finds (fun source => source.get_fails .string) target state
  | textual name =>
      rw [readAt]
      exact Site.scalar_fails finds (fun source => source.get_fails .string) target state
  | enumeration name =>
      obtain ⟨table, known⟩ := declared.table name .refl
      rw [readAt]
      apply Site.scalar_fails finds
      intro source
      split
      · exact (source.get_fails .string).passed ‹_›
      · exact (EnumerationInfo.code_fails known _).map _
  | record name =>
      rw [readAt]
      split
      · rename_i fault next opened
        exact structs.passed (congrArg Prod.fst opened)
      · exact structures name target _ declared
  | option inner =>
      rw [readAt]
      split_ifs with exhausted held
      · exact document_fails_ok ()
      · have content := read_at_fails structures inner (declared.direct .content)
          (schema.default inner) finds state
        rw [(Site.settle_ok content inner target state).1]
        exact document_fails_ok ()
      · obtain ⟨left, skipped, -⟩ := site.skip_kept state (Bool.eq_false_iff.mpr exhausted)
        dsimp only
        rw [skipped]
        exact document_fails_ok ()
  | sequence kind item =>
      rw [readAt]
      split
      · rename_i fault next opened
        exact arrays.passed (congrArg Prod.fst opened)
      · exact read_elements_fails (fun slots => read_at_fails structures item
          (declared.direct .item) (schema.default item) Slots.site_finds slots) _ _ _ _
  | map kind keyType valueType =>
      rw [readAt]
      cases schema.keyNaming? keyType with
      | some naming =>
          dsimp only
          split
          · rename_i fault next opened
            exact structs.passed (congrArg Prod.fst opened)
          · exact read_entries_fails naming keyType.name (fun name fields =>
              read_at_fails structures valueType (declared.direct .value)
                (schema.default valueType) (Fields.site_finds name) fields) _ _ _
      | none =>
          dsimp only
          split
          · rename_i fault next opened
            exact arrays.passed (congrArg Prod.fst opened)
          · exact read_elements_fails (fun slots => read_record_fails
              (fun fields => read_at_fails structures keyType (declared.direct .key)
                (schema.default keyType) (Fields.site_finds keyField) fields)
              (fun fields => read_at_fails structures valueType (declared.direct .value)
                (schema.default valueType) (Fields.site_finds valueField) fields) slots) _ _ _ _
  | tuple slots =>
      rw [readAt]
      split
      · rename_i fault next opened
        exact arrays.passed (congrArg Prod.fst opened)
      · exact read_slots_fails structures slots (fun slot inside => declared.direct (.slot inside))
          _ _ _ _
  | boxed inner =>
      rw [readAt]
      exact read_at_fails structures inner (declared.direct .boxed) target finds state

theorem read_slots_fails
    (structures : ∀ name target fields, schema.DeclaredThrough (.record name) →
      DocumentFails (deeper name target fields).outcome)
    (types : List Ty) (declared : ∀ type ∈ types, schema.DeclaredThrough type)
    (arity position : Nat) (targets : List Val) (slots : Slots) :
    DocumentFails (schema.readSlots deeper arity position types targets slots).outcome := by
  cases types with
  | nil =>
      rw [readSlots]
      split_ifs
      · exact document_fails_ok ()
      · exact document_fails_error rfl
  | cons type types =>
      rw [List.forall_mem_cons] at declared
      rw [readSlots]
      split_ifs
      · exact document_fails_error rfl
      · have own := read_at_fails structures type declared.1
          (targets.head?.getD (schema.default type)) Slots.site_finds slots
        dsimp only
        split
        · rename_i fault failed
          exact document_fails_error (own fault failed)
        · exact read_slots_fails structures types declared.2 arity (position + 1) _ _

end

mutual

/-- What is read of a member are its plain members. -/
theorem read_member_fails
    (structures : ∀ name target fields, schema.DeclaredThrough (.record name) →
      DocumentFails (deeper name target fields).outcome)
    (member : Member) (declared : ∀ leaf ∈ member.leaves, schema.DeclaredThrough leaf.type)
    (owner : Val) (fields : Fields) :
    DocumentFails (schema.readMember deeper owner fields member).outcome := by
  cases member with
  | field head type =>
      rw [readMember]
      exact (read_at_fails structures type (declared _ (List.mem_singleton_self _)) _
        (Fields.site_finds head.name) fields).in_field head.name
  | extend head base members =>
      rw [readMember]
      apply read_members_fails structures members
      intro leaf inside
      exact declared (leaf.beneath head.path) (List.mem_map_of_mem inside)

theorem read_members_fails
    (structures : ∀ name target fields, schema.DeclaredThrough (.record name) →
      DocumentFails (deeper name target fields).outcome)
    (members : List Member)
    (declared : ∀ leaf ∈ Member.leavesAll members, schema.DeclaredThrough leaf.type)
    (owner : Val) (fields : Fields) :
    DocumentFails (schema.readMembers deeper owner fields members).outcome := by
  cases members with
  | nil =>
      rw [readMembers]
      exact document_fails_ok ()
  | cons member rest =>
      rw [Member.leavesAll, List.forall_mem_append] at declared
      have own := read_member_fails structures member declared.1 owner fields
      rw [readMembers]
      split
      · exact own.passed ‹_›
      · exact read_members_fails structures rest declared.2 _ _

end

end Level

theorem read_structure_fails (levels : Nat) (name : String) (target : Val) (fields : Fields)
    (declared : schema.DeclaredThrough (.record name)) :
    DocumentFails (schema.readStructure levels name target fields).outcome := by
  induction levels generalizing name target fields with
  | zero => exact document_fails_ok ()
  | succ levels induction =>
      obtain ⟨members, built⟩ := declared.members name .refl
      rw [readStructure, built]
      apply read_members_fails (fun name target fields inside => induction name target fields inside)
      intro leaf inside
      exact declared.direct (.member (leaves_declared built ▸ inside))

theorem read_fails {type : Ty} (declared : schema.DeclaredThrough type) (target : Val) {State : Type}
    {site : Site State} (finds : site.FindsOrMisses) (state : State) :
    DocumentFails (schema.read type target site.inlet state).outcome :=
  read_at_fails (fun name target fields => read_structure_fails _ name target fields) type declared
    target finds state

/-- That an optional has been read as what its content is decoded to where a node is there that is
not null and can be decoded, and as nothing otherwise. -/
structure ReadsLeniently {State : Type} (node? : Option Node)
    (optional content : Reading Val State) : Prop where
  succeeds : optional.outcome = .ok ()
  present : ∀ value, optional.target = .present value ↔
    (∃ node, node? = some node ∧ node ≠ .null) ∧ content.outcome = .ok () ∧ content.target = value
  absent : (¬ ∃ value, optional.target = .present value) → optional.target = .absent

section Optionals

variable {State : Type} {site : Site State} {state : State}

/-- Where no element is left, and where nothing or null is, there is nothing to be read. -/
theorem option_read {type : Ty} (declared : schema.DeclaredThrough type) (target : Val)
    (finds : site.FindsOrMisses) {node? : Option Node}
    (shown : site.inlet.isExhausted state = true → node? = none)
    (held : site.inlet.holdsValue state = true ↔ ∃ node, node? = some node ∧ node ≠ .null) :
    ReadsLeniently node? (schema.read (.option type) target site.inlet state)
      (schema.read type (schema.default type) site.inlet state) := by
  have nothing {left : State} {log : Log} (empty : ¬ ∃ node, node? = some node ∧ node ≠ .null) :
      ReadsLeniently node? ⟨.ok (), .absent, left, log⟩
        (schema.read type (schema.default type) site.inlet state) :=
    ⟨rfl, fun value => ⟨nofun, fun known => absurd known.1 empty⟩, fun _ => rfl⟩
  rw [read, readAt]
  split_ifs with exhausted holds
  · exact nothing (by simp [shown exhausted])
  · have there := held.mp holds
    have fails := read_fails declared (schema.default type) finds state
    obtain ⟨outcome, result⟩ := Site.settle_ok fails type target state
    refine ⟨outcome, fun value => ?_, ?_⟩
    all_goals
      rw [← read, result]
      cases content : (schema.read type (schema.default type) site.inlet state).outcome with
      | ok done => simp [there]
      | error fault => simp
  · obtain ⟨left, skipped, -⟩ := site.skip_kept state (Bool.eq_false_iff.mpr exhausted)
    dsimp only
    rw [skipped]
    exact nothing fun there => holds (held.mpr there)

end Optionals

/-- Where all declarations that a type leads to are in order, an optional of the type is always read,
as a field and as the next element: it holds a value exactly where a node is there, is not null, and
is decoded to that value from the type's default. And whatever reading the type itself fails with is
structural, a mismatch of types or out of range. -/
theorem optionals_never_fail {type : Ty} (declared : schema.DeclaredThrough type) :
    (∀ target name fields,
      ReadsLeniently (Fields.get? fields name) (schema.readNamed (.option type) target name fields)
        (schema.readNamed type (schema.default type) name fields)) ∧
    (∀ target slots,
      ReadsLeniently slots.current? (schema.readNext (.option type) target slots)
        (schema.readNext type (schema.default type) slots)) ∧
    ∀ fault,
      ((∃ target name fields, (schema.readNamed type target name fields).outcome = .error fault) ∨
        (∃ target slots, (schema.readNext type target slots).outcome = .error fault) ∨
        ∃ name target fields, type = .record name ∧
          (schema.readObject name target fields).outcome = .error fault) →
      fault.kind = .structural ∨ fault.kind = .typeMismatch ∨ fault.kind = .range := by
  refine ⟨?_, ?_, ?_⟩
  · intro target name fields
    exact option_read declared target (Fields.site_finds name) nofun (Fields.holds_iff fields name)
  · intro target slots
    have ended (complete : slots.isComplete = true) : slots.current? = none :=
      List.getElem?_eq_none (of_decide_eq_true complete)
    exact option_read declared target Slots.site_finds ended slots.current_holds_iff
  · intro fault failed
    have kind : fault.kind.isDocument = true := by
      rcases failed with ⟨target, name, fields, failed⟩ | ⟨target, slots, failed⟩ |
        ⟨name, target, fields, rfl, failed⟩
      · exact read_fails declared target (Fields.site_finds name) fields fault failed
      · exact read_fails declared target Slots.site_finds slots fault failed
      · exact read_structure_fails _ name target fields declared fault failed
    cases known : fault.kind <;> simp_all [FaultKind.isDocument]

theorem route_declared_through : Route.schema.DeclaredThrough (.record "Stop") where
  members name inside := by
    obtain rfl : name = "Stop" := by simpa [Route.fares, Route.next] using Route.parts inside
    exact ⟨_, rfl⟩
  table name inside := by simpa [Route.fares, Route.next] using Route.parts inside

/-- A stop whose next stop has no fares is read without a next stop; one that has a fare that is not
a number is left out itself, and reading it is a mismatch of types. -/
theorem optionals_never_fail_stop :
    let stop : Ty := .record "Stop"
    let lone : Node := .struct [("name", .text "North"), ("fares", .struct []),
      ("next", .struct [("name", .text "South")])]
    let unread : Node := .struct [("name", .text "North"), ("fares", .struct [("child", .text "free")])]
    let document : Fields := [("first", lone), ("second", unread)]
    let fault : Fault := ⟨.typeMismatch "i32" "alloc::string::String", [.field "fares", .field "child"]⟩
    Route.schema.DeclaredThrough stop ∧
      (∃ value, (Route.schema.readNamed (.option stop) .absent "first" document).target =
        .present value ∧ value.equal (Route.stop "North" [] .absent 0) = true) ∧
      (Route.schema.readNamed (.option stop) .absent "second" document).outcome = .ok () ∧
      (Route.schema.readNamed (.option stop) .absent "second" document).target = .absent ∧
      (Route.schema.readNext stop (Route.schema.default stop) ⟨[unread], 0⟩).outcome = .error fault ∧
      (fault.kind = .structural ∨ fault.kind = .typeMismatch ∨ fault.kind = .range) := by
  intro stop lone unread document fault
  obtain ⟨named, -, kinds⟩ := optionals_never_fail route_declared_through
  have content : (Route.schema.readNamed stop (Route.schema.default stop) "first" document).outcome =
      .ok () := by decide +kernel
  have result : (Route.schema.readNamed stop (Route.schema.default stop) "first" document).target.equal
      (Route.stop "North" [] .absent 0) = true := by decide +kernel
  have failed : (Route.schema.readNamed stop (Route.schema.default stop) "second" document).outcome =
      .error fault := by decide +kernel
  have unreadable : (Route.schema.readNext stop (Route.schema.default stop) ⟨[unread], 0⟩).outcome =
      .error fault := by decide +kernel
  have first := named .absent "first" document
  have second := named .absent "second" document
  have held := (first.present _).mpr ⟨⟨lone, rfl, nofun⟩, content, rfl⟩
  refine ⟨route_declared_through, ⟨_, held, result⟩, second.succeeds, second.absent ?_,
    unreadable, kinds fault (.inr (.inl ⟨_, _, unreadable⟩))⟩
  rintro ⟨value, present⟩
  obtain ⟨-, read, -⟩ := (second.present value).mp present
  rw [failed] at read
  cases read

end Schema

end Marshal
