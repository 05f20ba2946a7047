import Marshal.Proofs.RoundTrip.Arrival
import Marshal.Proofs.RoundTrip.Values
import Marshal.Proofs.Settings.Consistency
import Marshal.Proofs.Settings.Writing

/-!
# What one registry has written and another reads

A registry leaves a field for each of its entries, except for those that are an optional without
content. Another registry with entries of the same names and types reads a value from each of these
fields and keeps its own value where there is none.
-/

namespace Marshal

namespace Schema

variable {schema : Schema}

/-- What shows of a value where it has been written: a node that it can be restored from, or nothing
if it is an optional without content. -/
structure Shown (schema : Schema) (type : Ty) (value : Val) (node? : Option Node) : Prop where
  carries : schema.Carries type value node?
  empty : node? = none ↔ value = .absent

theorem Restorable.names_read_back {type : Ty} (restorable : schema.Restorable type) :
    schema.NamesReadBack type := by
  intro kind key value naming inside named text name toName
  obtain ⟨-, inverse⟩ := restorable.named kind key value naming inside named
  obtain ⟨known, given, back⟩ := inverse text
  rw [toName] at given
  cases given
  exact back

theorem Written.unique {type : Ty} {value : Val} {left right : Option Node}
    (leftWritten : schema.Written type value left) (rightWritten : schema.Written type value right)
    (leftSolid : left ≠ some .null) (rightSolid : right ≠ some .null) : left = right := by
  have leftLeaves := leftWritten value.depth le_rfl Slots.place .empty
  have rightLeaves := rightWritten value.depth le_rfl Slots.place .empty
  have same := congrArg Prod.snd (leftLeaves.symm.trans rightLeaves)
  have elements : left.getD .null = right.getD .null := by
    simpa [Slots.place, Slots.push, Slots.empty] using same
  cases left with
  | none =>
      cases right with
      | none => rfl
      | some node => exact absurd (congrArg some elements.symm) rightSolid
  | some node =>
      cases right with
      | none => exact absurd (congrArg some elements) leftSolid
      | some other => exact congrArg some elements

/-- Of the values that can be restored, only an optional without content is left out. -/
theorem leaves_out_iff_absent (type : Ty) (restorable : schema.Restorable type) {value : Val}
    (typed : schema.HasType type value) : type.leavesOut value = true ↔ value = .absent := by
  cases type with
  | option inner =>
      cases typed with
      | absent => simp [Ty.leavesOut]
      | present typed =>
          rw [Ty.leavesOut, Ty.leaves_out_required (restorable.optional inner .refl)]
          simp
  | boxed inner =>
      cases typed with
      | boxed typed => exact leaves_out_iff_absent inner (restorable.direct .boxed) typed
  | _ => cases typed <;> simp [Ty.leavesOut]

theorem written_shown (sound : schema.Sound) {type : Ty} {value : Val}
    (typed : schema.HasType type value) (restorable : schema.Restorable type)
    (writes : schema.Writes type value) : ∃ node?, schema.Shown type value node? := by
  obtain ⟨node?, carries⟩ :=
    carried sound type value typed restorable (writes_mapped sound writes)
  obtain ⟨other?, arrives⟩ := arrives sound type value typed restorable.names_read_back writes
  obtain rfl := carries.always_written.unique arrives.written carries.solid arrives.solid
  exact ⟨node?, carries, arrives.empty.trans (leaves_out_iff_absent type restorable typed)⟩

end Schema

namespace Entries

variable {schema : Schema}

/-- That each entry holds a value of its type, which can be restored from what is written. -/
def Restorable (schema : Schema) (entries : Entries) : Prop :=
  ∀ entry ∈ entries, ∃ type value, entry.2 = .of type value ∧ schema.HasType type value ∧
    schema.Restorable type

/-- What has been written of the entries shows in the fields of their names. -/
theorem write_shown (sound : schema.Sound) {entries : Entries} (distinct : entries.names.Nodup)
    (restorable : entries.Restorable schema) {fields document : Fields}
    (free : ∀ name ∈ entries.names, fields.get? name = none)
    (written : entries.write schema fields = (.ok (), document)) :
    ∀ entry ∈ entries, ∀ type value, entry.2 = .of type value →
      schema.Shown type value (document.get? entry.1) := by
  refine (write_leaves schema.Shown (fun shown => shown.carries.always_written) distinct ?_ free written).2
  intro entry inside
  obtain ⟨type, value, held, typed, restored⟩ := restorable entry inside
  exact ⟨type, value, held, Schema.written_shown sound typed restored⟩

/-- What becomes of a value where another of the same name and type has been written: the written
value is restored over it, except for an optional without content, of which nothing is written. -/
structure Transferred (schema : Schema) (type : Ty) (value target result : Val) : Prop where
  kept : value = .absent → result = target
  restores : value ≠ .absent → schema.Restores type value target result
  alike : value ≠ .absent → schema.Alike type value result
  same : value ≠ .absent → schema.NothingSkipped type → value.equal value = true → result = value

theorem shown_decoded (sound : schema.Sound) {name : String} {type : Ty} {value target : Val}
    (typed : schema.HasType type value) (targetTyped : schema.HasType type target)
    {document : Fields} (shown : schema.Shown type value (document.get? name)) :
    Readable schema document name (.of type target) ∧
      ∃ result, revised schema document name (.of type target) = .of type result ∧
        Transferred schema type value target result := by
  obtain ⟨carries, empty⟩ := shown
  cases found : document.get? name with
  | none =>
      have missing : document.holds name = false := by rw [Fields.holds, found]
      have absent := empty.mp found
      rw [Readable, revised, decode_missing schema missing]
      exact ⟨rfl, target, rfl, fun _ => rfl, fun present => absurd absent present,
        fun present => absurd absent present, fun present => absurd absent present⟩
  | some node =>
      rw [found] at carries empty
      have holds : document.holds name = true := by
        rw [Fields.holds, found]
        cases node with
        | null => exact absurd rfl carries.solid
        | _ => rfl
      have present : value ≠ .absent := fun absent => by cases empty.mpr absent
      obtain ⟨result, restores, reread⟩ := carries.read target targetTyped
      have recovers : schema.Recovers type value target
          (schema.readNamed type target name document) :=
        reread.recovers sound typed targetTyped restores (Fields.place name) found
      rw [Readable, revised, decode_present schema holds, recovers.outcome]
      exact ⟨rfl, _, rfl, fun absent => absurd absent present, fun _ => recovers.restores,
        fun _ => recovers.alike, fun _ => recovers.same⟩

end Entries

namespace Settings

variable {schema : Schema}

/-- That calls on an empty registry lead to a registry. -/
def Reached [Json.NumberReader] (schema : Schema) (settings : Settings) : Prop :=
  ∃ config calls, run schema (withConfig config) calls = settings

section Reaching

variable [Json.NumberReader]

theorem Reached.ordered {settings : Settings} (reached : Reached schema settings) :
    settings.entries.Ordered := by
  obtain ⟨config, calls, rfl⟩ := reached
  exact run_ordered schema config calls

theorem Reached.consistent {settings : Settings} (reached : Reached schema settings) :
    Consistent settings := by
  obtain ⟨config, calls, rfl⟩ := reached
  exact run_consistent schema _ calls (consistent_empty config)

theorem Reached.stored {settings : Settings} (reached : Reached schema settings) {name : String}
    {entry : Entry} (found : settings.entries.get? name = some entry) :
    ∃ value, entry = .of entry.type value := by
  have held := reached.consistent.stored name entry found
  obtain ⟨type, held?⟩ := entry
  obtain ⟨⟨other, value⟩, present, same⟩ := Option.map_eq_some_iff.mp held
  cases same
  exact ⟨value, congrArg (Entry.mk _ ⟨·⟩) present⟩

end Reaching

/-- That the values of a registry's entries are of the types that the entries have. -/
def Typed (schema : Schema) (settings : Settings) : Prop :=
  ∀ name type value, settings.entries.get? name = some (.of type value) → schema.HasType type value

section Transfer

variable {left right : Settings} {document : Fields}

theorem entries_written (written : writeInto schema left [] = (.ok (), document)) :
    left.entries.write schema [] = (.ok (), document) := by
  unfold writeInto at written
  split at written
  · rename_i fields done
    cases written
    exact done
  · cases written

theorem read_from_ok (outcome : (right.entries.read schema document).outcome = .ok ()) :
    (readFrom schema right document).result.outcome = .ok () ∧
      (readFrom schema right document).result.settings.entries =
        (right.entries.read schema document).target := by
  simp only [readFrom, outcome]
  exact ⟨rfl, rfl⟩

variable [Json.NumberReader]

theorem entries_restorable (reached : Reached schema left) (typed : Typed schema left)
    (restorable : ∀ name entry, left.entries.get? name = some entry → schema.Restorable entry.type) :
    left.entries.Restorable schema := by
  intro ⟨name, entry⟩ inside
  have found := Entries.get_of_mem reached.ordered.distinct inside
  have restored := restorable name entry found
  obtain ⟨value, held⟩ := reached.stored found
  rw [held] at found
  exact ⟨entry.type, value, held, typed _ _ _ found, restored⟩

/-- An entry of the other registry finds what the entry of its name has left. -/
theorem entry_transferred (sound : schema.Sound) (leftReached : Reached schema left)
    (rightReached : Reached schema right) (leftTyped : Typed schema left)
    (rightTyped : Typed schema right)
    (shown : ∀ entry ∈ left.entries, ∀ type value, entry.2 = .of type value →
      schema.Shown type value (document.get? entry.1)) {name : String} {entry : Entry}
    (same : (left.entries.get? name).map Entry.type = (right.entries.get? name).map Entry.type)
    (found : right.entries.get? name = some entry) :
    Entries.Readable schema document name entry ∧
      ∃ value target result, left.entries.get? name = some (.of entry.type value) ∧
        entry = .of entry.type target ∧
          Entries.revised schema document name entry = .of entry.type result ∧
            Entries.Transferred schema entry.type value target result := by
  obtain ⟨target, held⟩ := rightReached.stored found
  rw [found] at same
  obtain ⟨other, otherFound, otherType⟩ := Option.map_eq_some_iff.mp same
  obtain ⟨value, otherHeld⟩ := leftReached.stored otherFound
  rw [otherHeld, otherType] at otherFound
  rw [held] at found
  have typed := leftTyped _ _ _ otherFound
  have targetTyped := rightTyped _ _ _ found
  obtain ⟨readable, result, revised, moved⟩ := Entries.shown_decoded sound typed targetTyped
    (shown _ (Entries.mem_of_get otherFound) _ _ rfl)
  rw [← held] at readable revised
  exact ⟨readable, value, target, result, otherFound, held, revised, moved⟩

/-- A document that one registry has been written into can be read into any other with entries of the
same names and types. Every value that has been written is restored; an optional without content has
not been, and the entry of its name is left as it was. -/
theorem written_settings_transferred (sound : schema.Sound) (leftReached : Reached schema left)
    (rightReached : Reached schema right) (leftTyped : Typed schema left)
    (rightTyped : Typed schema right)
    (restorable : ∀ name entry, left.entries.get? name = some entry → schema.Restorable entry.type)
    (same : ∀ name, (left.entries.get? name).map Entry.type = (right.entries.get? name).map Entry.type)
    (written : writeInto schema left [] = (.ok (), document)) :
    let read := (readFrom schema right document).result
    read.outcome = .ok () ∧
      ∀ name entry, right.entries.get? name = some entry →
        ∃ value target result, left.entries.get? name = some (.of entry.type value) ∧
          entry = .of entry.type target ∧
            read.settings.entries.get? name = some (.of entry.type result) ∧
              Entries.Transferred schema entry.type value target result := by
  have contents := entries_restorable leftReached leftTyped restorable
  have shown := Entries.write_shown sound leftReached.ordered.distinct contents
    (fun _ _ => rfl) (entries_written written)
  have transferred (name : String) (entry : Entry) (found : right.entries.get? name = some entry) :=
    entry_transferred sound leftReached rightReached leftTyped rightTyped shown (same name) found
  obtain ⟨readable, revised⟩ := Entries.read_iff schema rightReached.ordered document
  have succeeded := readable.mpr fun entry inside =>
    (transferred _ _ (Entries.get_of_mem rightReached.ordered.distinct inside)).1
  obtain ⟨outcome, entries⟩ := read_from_ok succeeded
  refine ⟨outcome, ?_⟩
  intro name entry found
  obtain ⟨-, value, target, result, otherFound, held, changed, moved⟩ := transferred name entry found
  refine ⟨value, target, result, otherFound, held, ?_, moved⟩
  rw [entries, revised succeeded, Entries.get_revise, found, Option.map_some, changed]

end Transfer

theorem typed_of_mem {settings : Settings}
    (each : ∀ entry ∈ settings.entries, ∃ type value, entry.2 = .of type value ∧
      schema.HasType type value) : Typed schema settings := by
  intro name type value found
  obtain ⟨other, held, same, typed⟩ := each _ (Entries.mem_of_get found)
  cases same
  exact typed

end Settings

namespace Route

open Settings

/-- A registry of a stop to start from and of how often to change lines at most. -/
def preferences (home limit : Val) : Settings :=
  run schema (withConfig .plain) [.declareValue (.record "Stop") "home" home false .absent,
    .declareValue count "limit" limit false .absent]

theorem preferences_entries (home limit : Val) : (preferences home limit).entries =
    [("home", .of (.record "Stop") home), ("limit", .of count limit)] := by
  rfl

theorem preferences_reached (home limit : Val) : Reached schema (preferences home limit) :=
  ⟨_, _, rfl⟩

theorem preferences_typed {home limit : Val} (homeTyped : schema.HasType (.record "Stop") home)
    (limitTyped : schema.HasType count limit) : Typed schema (preferences home limit) := by
  apply typed_of_mem
  rw [preferences_entries]
  simp only [List.forall_mem_cons]
  exact ⟨⟨_, home, rfl, homeTyped⟩, ⟨_, limit, rfl, limitTyped⟩, nofun⟩

theorem count_restorable : schema.Restorable count where
  declared name inside := by rcases count_parts inside with same | same <;> cases same
  optional inner inside := by
    rcases count_parts inside with same | same <;> cases same
    rfl
  named kind key value naming inside := by rcases count_parts inside with same | same <;> cases same
  keys kind key value inside := by rcases count_parts inside with same | same <;> cases same

theorem preferences_restorable (home limit : Val) (name : String) (entry : Entry)
    (found : (preferences home limit).entries.get? name = some entry) :
    schema.Restorable entry.type := by
  have inside := Entries.mem_of_get found
  rw [preferences_entries] at inside
  simp only [List.mem_cons, Prod.mk.injEq, List.not_mem_nil, or_false] at inside
  rcases inside with ⟨-, rfl⟩ | ⟨-, rfl⟩
  · exact restorable
  · exact count_restorable

theorem preferences_types (home limit other further : Val) (name : String) :
    ((preferences home limit).entries.get? name).map Entry.type =
      ((preferences other further).entries.get? name).map Entry.type := by
  simp only [preferences_entries, Entries.get_cons, Entries.get_nil]
  split_ifs <;> rfl

/-- Preferences without a limit. -/
def unlimited : Settings :=
  preferences (stop "North" [] (.present (stop "South" [] .absent 7)) 12) .absent

def limited : Settings := preferences (stop "" [] .absent 3) (.present (.int 5))

theorem unlimited_typed : Typed schema unlimited :=
  preferences_typed (stop_typed no_fares
    (.present (.boxed (stop_typed no_fares .absent (by decide)))) (by decide)) .absent

theorem limited_typed : Typed schema limited :=
  preferences_typed (stop_typed no_fares .absent (by decide)) (.present (.int (by decide)))

/-- The document of the preferences without a limit. -/
def shared : Fields := (writeInto schema unlimited []).2

theorem shared_written : writeInto schema unlimited [] = (.ok (), shared) := by
  have outcome : (writeInto schema unlimited []).1 = .ok () := by decide +kernel
  exact Prod.ext outcome rfl

end Route

namespace Settings

open Route

/-- The stop is handed on from one registry to another, while the limit that the first one does not
have stays that of the other. -/
theorem written_settings_transferred_home :
    let read := (readFrom Route.schema limited shared).result
    Route.schema.Sound ∧ Reached Route.schema unlimited ∧ Reached Route.schema limited ∧
      Typed Route.schema unlimited ∧ Typed Route.schema limited ∧
        (∀ name entry, unlimited.entries.get? name = some entry →
          Route.schema.Restorable entry.type) ∧
        (∀ name, (unlimited.entries.get? name).map Entry.type =
          (limited.entries.get? name).map Entry.type) ∧
        writeInto Route.schema unlimited [] = (.ok (), shared) ∧
          read.outcome = .ok () ∧
            (∃ home, read.settings.entries.get? "home" = some (.of (.record "Stop") home) ∧
              Route.schema.Alike (.record "Stop")
                (stop "North" [] (.present (stop "South" [] .absent 7)) 12) home) ∧
              read.settings.entries.get? "limit" = some (.of count (.present (.int 5))) := by
  intro read
  have left : Reached Route.schema unlimited := preferences_reached _ _
  have right : Reached Route.schema limited := preferences_reached _ _
  have same (name : String) : (unlimited.entries.get? name).map Entry.type =
      (limited.entries.get? name).map Entry.type := preferences_types _ _ _ _ name
  obtain ⟨outcome, transferred⟩ := written_settings_transferred Route.sound left right unlimited_typed
    limited_typed (preferences_restorable _ _) same shared_written
  refine ⟨Route.sound, left, right, unlimited_typed, limited_typed, preferences_restorable _ _, same,
    shared_written, outcome, ?_, ?_⟩
  · obtain ⟨value, target, result, written, -, found, moved⟩ := transferred "home" _ rfl
    cases written
    exact ⟨result, found, moved.alike nofun⟩
  · obtain ⟨value, target, result, written, held, found, moved⟩ := transferred "limit" _ rfl
    cases written
    cases held
    rw [moved.kept rfl] at found
    exact found

/-- An optional without content is not handed on: the other registry keeps the limit that it has. -/
theorem absent_settings_not_transferred :
    ¬ ∀ left right document, Reached Route.schema left → Reached Route.schema right →
      Typed Route.schema left → Typed Route.schema right →
      (∀ name entry, left.entries.get? name = some entry → Route.schema.Restorable entry.type) →
      (∀ name, (left.entries.get? name).map Entry.type = (right.entries.get? name).map Entry.type) →
      writeInto Route.schema left [] = (.ok (), document) →
        ∀ name type value result, left.entries.get? name = some (.of type value) →
          (readFrom Route.schema right document).result.settings.entries.get? name =
            some (.of type result) → Route.schema.Alike type value result := by
  intro claimed
  have right : Reached Route.schema limited := preferences_reached _ _
  have outcome : (limited.entries.read Route.schema shared).outcome = .ok () := by decide +kernel
  have missing : shared.holds "limit" = false := by decide +kernel
  have revised := (Entries.read_iff Route.schema right.ordered shared).2 outcome
  have kept : (readFrom Route.schema limited shared).result.settings.entries.get? "limit" =
      some (.of count (.present (.int 5))) := by
    rw [(read_from_ok outcome).2]
    refine (congrArg (Entries.get? · "limit") revised).trans ?_
    rw [Entries.get_revise]
    exact congrArg some (congrArg Reading.target (Entries.decode_missing Route.schema missing _))
  have alike := claimed unlimited limited shared (preferences_reached _ _) right unlimited_typed
    limited_typed (preferences_restorable _ _) (preferences_types _ _ _ _) shared_written "limit" count
    .absent _ rfl kept
  cases alike

end Settings

end Marshal
