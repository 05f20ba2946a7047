import Marshal.Proofs.RoundTrip.Success
import Marshal.Proofs.Settings.Decoding

/-!
# What entries leave in a document

Entries are written one after the other, each into the field of its name. Whatever is known of the
node that a value leaves wherever it is written, holds of that field once all of them are written.
-/

namespace Marshal.Entries

variable {schema : Schema} (leaves : Ty → Val → Option Node → Prop)

/-- Writing an entry leaves in the field of its name what its value leaves wherever it is written. -/
theorem entry_leaves
    (always : ∀ {type value node?}, leaves type value node? → schema.Written type value node?)
    {name : String} {type : Ty} {value : Val}
    (left : schema.Writes type value → ∃ node?, leaves type value node?) {fields : Fields}
    (ok : ((schema.writeAny type (.of type value) name).inField name fields).1 = .ok ()) :
    ∃ node?, leaves type value node? ∧
      (schema.writeAny type (.of type value) name).inField name fields =
        (.ok (), (Fields.place name).leave node? fields) := by
  have held : schema.writeAny type (.of type value) name = schema.writeNamed type value name := by
    rw [Schema.writeAny, held_of]
  rw [held] at ok ⊢
  have writes : schema.Writes type value :=
    ⟨value.depth, le_rfl, Fields, Fields.place name, fields, Step.map_fault_ok ok⟩
  obtain ⟨node?, own⟩ := left writes
  have written : schema.writeNamed type value name fields = _ :=
    always own value.depth le_rfl (Fields.place name) fields
  refine ⟨node?, own, ?_⟩
  rw [Step.inField, Step.mapFault, written]

/-- What has been written of the entries, one after the other: each has left its node in the field of
its name, and fields of other names are left as they are. -/
theorem write_leaves
    (always : ∀ {type value node?}, leaves type value node? → schema.Written type value node?)
    {entries : Entries} (distinct : entries.names.Nodup)
    (each : ∀ entry ∈ entries, ∃ type value, entry.2 = .of type value ∧
      (schema.Writes type value → ∃ node?, leaves type value node?)) {fields document : Fields}
    (free : ∀ name ∈ entries.names, fields.get? name = none)
    (written : entries.write schema fields = (.ok (), document)) :
    (∀ name ∉ entries.names, document.get? name = fields.get? name) ∧
      ∀ entry ∈ entries, ∀ type value, entry.2 = .of type value →
        leaves type value (document.get? entry.1) := by
  induction entries generalizing fields with
  | nil =>
      cases written
      exact ⟨fun _ _ => rfl, nofun⟩
  | cons head rest induction =>
      obtain ⟨known, entry⟩ := head
      obtain ⟨fresh, further⟩ := List.nodup_cons.mp distinct
      rw [List.forall_mem_cons] at each
      obtain ⟨⟨type, value, rfl, left⟩, others⟩ := each
      have names : Entries.names ((known, Entry.of type value) :: rest) =
          known :: Entries.names rest := rfl
      rw [names, List.forall_mem_cons] at free ⊢
      rw [write] at written
      obtain ⟨first, -⟩ := Step.and_then_ok (congrArg Prod.fst written)
      obtain ⟨node?, own, step⟩ := entry_leaves leaves always left first
      rw [Step.andThen, Entry.of, step] at written
      have restFree : ∀ name ∈ Entries.names rest,
          ((Fields.place known).leave node? fields).get? name = none := by
        intro name inside
        have different : known ≠ name := fun same => fresh (same ▸ inside)
        rw [Fields.get_leave, if_neg different]
        exact free.2 name inside
      obtain ⟨beside, below⟩ := induction further others restFree written
      refine ⟨?_, ?_, below⟩
      · intro name outside
        rw [List.mem_cons, not_or] at outside
        rw [beside name outside.2, Fields.get_leave, if_neg (Ne.symm outside.1)]
      · intro other inner same
        cases same
        rw [beside known fresh, Fields.get_leave, if_pos rfl, free.1, Option.or_none]
        exact own

end Marshal.Entries
