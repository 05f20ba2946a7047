import Marshal.Proofs.Reading.Places
import Marshal.Proofs.Settings.Order

/-!
# Entries are decoded independently of each other

An entry is decoded from the field of its name alone and leaves all other fields to the entries
after it. So a document is read exactly when it can be read for each of the entries, and makes of
each what it makes of that entry alone.
-/

namespace Marshal.Entries

variable (schema : Schema)

/-- That a document can be read for an entry. -/
def Readable (document : Fields) (name : String) (entry : Entry) : Prop :=
  (decodeEntry schema name entry document).outcome = .ok ()

/-- What a document makes of an entry. -/
def revised (document : Fields) (name : String) (entry : Entry) : Entry :=
  (decodeEntry schema name entry document).target

variable {fields other : Fields} {name : String}

theorem get_of_holds (holds : fields.holds name = true) : ∃ node, fields.get? name = some node := by
  rw [Fields.holds] at holds
  cases found : fields.get? name with
  | none => simp [found] at holds
  | some node => exact ⟨node, rfl⟩

theorem held_of (type : Ty) (value : Val) : (AnyValue.of type value).getOrFault type = .ok value := by
  simp [AnyValue.of, AnyValue.getOrFault, AnyValue.get, Except.mapError]

theorem decode_missing (missing : fields.holds name = false) (entry : Entry) :
    decodeEntry schema name entry fields = ⟨.ok (), entry, fields, []⟩ :=
  if_neg (by simp [missing])

/-- An entry that is there is read as a value of its type. -/
theorem decode_present (holds : fields.holds name = true) (type : Ty) (value : Val) :
    let reading := schema.readNamed type value name fields
    decodeEntry schema name (.of type value) fields =
      ⟨reading.outcome.mapError (Fault.inField name), .of type reading.target, reading.source,
        reading.log⟩ := by
  simp only [decodeEntry, if_pos holds, Schema.readAny, Entry.of, held_of]

theorem decode_entry_same (shown : fields.get? name = other.get? name) (entry : Entry) :
    (decodeEntry schema name entry fields).outcome = (decodeEntry schema name entry other).outcome ∧
      (decodeEntry schema name entry fields).target =
        (decodeEntry schema name entry other).target := by
  have same : fields.holds name = other.holds name := by rw [Fields.holds, Fields.holds, shown]
  unfold decodeEntry
  rw [same]
  split_ifs with holds
  · obtain ⟨node, found⟩ := get_of_holds holds
    have first := shown.trans found
    have passable := Fields.place_passable name
    unfold Schema.readAny
    cases entry.value.getOrFault entry.type with
    | error fault => exact ⟨rfl, rfl⟩
    | ok value =>
        obtain ⟨outcome, target, -⟩ := Schema.read_at_same schema.readObject entry.type value
          passable passable first found
        exact ⟨congrArg (Except.mapError (Fault.inField name)) outcome,
          congrArg (fun target => Entry.mk entry.type (.of entry.type target)) target⟩
  · exact ⟨rfl, rfl⟩

theorem decode_entry_keeps_fields (entry : Entry) {beside : String} (different : beside ≠ name) :
    (decodeEntry schema name entry fields).source.get? beside = fields.get? beside := by
  unfold decodeEntry
  split_ifs with holds
  · obtain ⟨node, found⟩ := get_of_holds holds
    unfold Schema.readAny
    cases entry.value.getOrFault entry.type with
    | error fault => rfl
    | ok value =>
        exact Schema.read_at_keeps schema.readObject entry.type value (Fields.place_passable name)
          found beside different
  · rfl

/-- Fields that no entry has used are what they were in the document, so the induction is on the
entries left. -/
theorem decode_all_iff (document : Fields) {entries : Entries} (distinct : entries.names.Nodup)
    {fields : Fields} (same : ∀ name ∈ entries.names, fields.get? name = document.get? name) :
    ((decodeAll schema entries fields).outcome = .ok () ↔
      ∀ entry ∈ entries, Readable schema document entry.1 entry.2) ∧
    ((decodeAll schema entries fields).outcome = .ok () →
      (decodeAll schema entries fields).target = entries.revise (revised schema document)) := by
  induction entries generalizing fields with
  | nil => simp [decodeAll, revise]
  | cons head rest induction =>
      obtain ⟨known, entry⟩ := head
      obtain ⟨fresh, further⟩ := List.nodup_cons.mp distinct
      obtain ⟨outcome, target⟩ := decode_entry_same schema (same known List.mem_cons_self) entry
      have others : ∀ name ∈ Entries.names rest,
          (decodeEntry schema known entry fields).source.get? name = document.get? name := by
        intro name inside
        have different : name ≠ known := fun equal => fresh (equal ▸ inside)
        rw [decode_entry_keeps_fields schema entry different]
        exact same name (List.mem_cons_of_mem _ inside)
      obtain ⟨readable, read⟩ := induction further others
      rw [List.forall_mem_cons]
      simp only [decodeAll]
      cases decoded : (decodeEntry schema known entry fields).outcome with
      | error fault =>
          rw [decoded] at outcome
          simp [Readable, ← outcome]
      | ok done =>
          rw [decoded] at outcome
          have own : Readable schema document known entry := outcome.symm
          dsimp only
          refine ⟨readable.trans ⟨fun others => ⟨own, others⟩, And.right⟩, ?_⟩
          intro succeeded
          rw [read succeeded, target]
          rfl

/-- A document is read exactly when it can be read for each entry. -/
theorem read_iff {entries : Entries} (ordered : entries.Ordered) (document : Fields) :
    ((entries.read schema document).outcome = .ok () ↔
      ∀ entry ∈ entries, Readable schema document entry.1 entry.2) ∧
    ((entries.read schema document).outcome = .ok () →
      (entries.read schema document).target = entries.revise (revised schema document)) := by
  have decoded := decode_all_iff schema document ordered.distinct (fun _ _ => rfl)
  unfold read
  cases outcome : (decodeAll schema entries document).outcome with
  | error fault =>
      rw [outcome] at decoded
      simpa [outcome] using decoded
  | ok done =>
      rw [outcome] at decoded
      simpa [outcome] using decoded

end Marshal.Entries
