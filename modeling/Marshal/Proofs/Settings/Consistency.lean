import Marshal.Proofs.Settings.Lookup
import Marshal.Proofs.Settings.Run

/-!
# The two sides of a registry agree

A registry keeps its settings by name and, beside that, the name of each declared type. Whatever
calls have been made on it, failed ones included, a type is bound to a name exactly when the entry
of that name is one of the type, and an entry holds a value of its own type.
-/

namespace Marshal

/-- An entry after a change of its value: the type stays, and what was a value of the type is
one still. -/
def Entry.Keeps (old new : Entry) : Prop :=
  new.type = old.type ∧
    (old.value.type? = some old.type → new.value.type? = some new.type)

namespace Entry

theorem Keeps.refl (entry : Entry) : entry.Keeps entry := ⟨rfl, id⟩

theorem keeps_of (entry : Entry) (value : Val) :
    entry.Keeps ⟨entry.type, .of entry.type value⟩ := ⟨rfl, fun _ => rfl⟩

end Entry

namespace Entries

/-- Two maps with the same names, each entry of the first being kept by the second. -/
def Keep (old new : Entries) : Prop :=
  ∀ name, Option.Rel Entry.Keeps (old.get? name) (new.get? name)

theorem Keep.refl (entries : Entries) : entries.Keep entries := by
  intro name
  cases entries.get? name with
  | none => exact .none
  | some entry => exact .some (.refl entry)

theorem keep_insert {entries : Entries} {name : String} {old new : Entry}
    (found : entries.get? name = some old) (keeps : old.Keeps new) :
    entries.Keep (entries.insert name new) := by
  intro wanted
  rw [get_insert]
  split_ifs with same
  · subst same
    rw [found]
    exact .some keeps
  · exact Keep.refl entries wanted

theorem read_any_keeps (schema : Schema) (entry : Entry) (name : String) (fields : Fields)
    (outcome : (schema.readAny entry.type entry.value name fields).outcome = .ok ()) :
    entry.Keeps ⟨entry.type, (schema.readAny entry.type entry.value name fields).container⟩ := by
  unfold Schema.readAny at outcome ⊢
  cases held : entry.value.getOrFault entry.type with
  | error fault => simp [held] at outcome
  | ok value => exact entry.keeps_of _

theorem decode_entry_keeps (schema : Schema) (name : String) (entry : Entry) (fields : Fields)
    (outcome : (decodeEntry schema name entry fields).outcome = .ok ()) :
    entry.Keeps (decodeEntry schema name entry fields).target := by
  unfold decodeEntry at outcome ⊢
  by_cases holds : fields.holds name
  · rw [if_pos holds] at outcome ⊢
    apply read_any_keeps
    cases read : (schema.readAny entry.type entry.value name fields).outcome with
    | error fault => simp [read, Except.mapError] at outcome
    | ok => rfl
  · rw [if_neg holds]
    exact .refl entry

/-- Decoding goes through the entries in order, so the induction is on the entries left. -/
theorem decode_all_keeps (schema : Schema) (entries : Entries) (fields : Fields)
    (outcome : (decodeAll schema entries fields).outcome = .ok ()) :
    entries.Keep (decodeAll schema entries fields).target := by
  induction entries generalizing fields with
  | nil => exact Keep.refl []
  | cons head rest induction =>
      obtain ⟨known, entry⟩ := head
      simp only [decodeAll] at outcome ⊢
      cases decoded : (decodeEntry schema known entry fields).outcome with
      | error fault => simp [decoded] at outcome
      | ok =>
          simp only [decoded] at outcome ⊢
          intro wanted
          rw [get_cons, get_cons]
          split_ifs
          · exact .some (decode_entry_keeps schema known entry fields decoded)
          · exact induction _ outcome wanted

theorem read_keeps (schema : Schema) (entries : Entries) (fields : Fields) :
    entries.Keep (entries.read schema fields).target := by
  unfold Entries.read
  cases outcome : (decodeAll schema entries fields).outcome with
  | error fault => simpa [outcome] using Keep.refl entries
  | ok => simpa [outcome] using decode_all_keeps schema entries fields outcome

theorem read_entry_keeps (schema : Schema) (entries : Entries) (name : String) (fields : Fields) :
    entries.Keep (entries.readEntry schema name fields).2.1 := by
  unfold Entries.readEntry
  cases found : entries.get? name with
  | none => exact Keep.refl entries
  | some entry =>
      by_cases holds : fields.holds name
      · simp only [if_pos holds]
        cases outcome : (decodeEntry schema name entry fields).outcome with
        | error fault => exact Keep.refl entries
        | ok => exact keep_insert found (decode_entry_keeps schema name entry fields outcome)
      · simpa [holds] using Keep.refl entries

end Entries

namespace Settings

/-- A type is bound to a name exactly when the entry of that name is one of the type, and every
entry holds a value of its type. -/
structure Consistent (settings : Settings) : Prop where
  bound_iff : ∀ type name, settings.boundName? type = some name ↔
    ∃ entry, settings.entries.get? name = some entry ∧ entry.type = type
  stored : ∀ name entry, settings.entries.get? name = some entry →
    entry.value.type? = some entry.type

theorem consistent_empty (config : SettingsConfig) : Consistent (withConfig config) where
  bound_iff type name := by simp [withConfig, boundName?]
  stored name entry found := by simp [withConfig] at found

namespace Consistent

variable {settings : Settings} {type : Ty} {name : String}

/-- Changing values inside of entries keeps the two sides together. -/
theorem keep (consistent : Consistent settings) {entries : Entries}
    (kept : settings.entries.Keep entries) : Consistent { settings with entries } where
  bound_iff type name := by
    have related := kept name
    refine (consistent.bound_iff type name).trans ?_
    revert related
    generalize settings.entries.get? name = old
    intro related
    cases found : entries.get? name with
    | none =>
        rw [found] at related
        cases related
        simp
    | some new =>
        rw [found] at related
        cases related with
        | some keeps => simp [keeps.1]
  stored name new found := by
    have related := kept name
    rw [show entries.get? name = some new from found] at related
    cases before : settings.entries.get? name with
    | none => rw [before] at related; cases related
    | some old =>
        rw [before] at related
        cases related with
        | some keeps => exact keeps.2 (consistent.stored name old before)

theorem bind (consistent : Consistent settings) (unbound : settings.boundName? type = none)
    (free : settings.entries.get? name = none) (value : Val) :
    Consistent (settings.bind type name (.of type value)) where
  bound_iff other wanted := by
    rw [bound_bind]
    simp only [Settings.bind, Entries.get_insert]
    by_cases sameName : name = wanted
    · subst sameName
      have nowhere : settings.boundName? other ≠ some name := by
        intro bound
        obtain ⟨entry, found, _⟩ := (consistent.bound_iff other name).mp bound
        simp [free] at found
      by_cases sameType : type = other <;> simp [sameType, Entry.of, nowhere]
    · by_cases sameType : type = other
      · subst sameType
        have nowhere := consistent.bound_iff type wanted
        simp only [unbound, reduceCtorEq, false_iff] at nowhere
        simpa [sameName] using nowhere
      · simpa [sameName, sameType] using consistent.bound_iff other wanted
  stored wanted entry found := by
    simp only [Settings.bind, Entries.get_insert] at found
    split_ifs at found with same
    · cases found
      rfl
    · exact consistent.stored wanted entry found

theorem unbind (consistent : Consistent settings) (bound : settings.boundName? type = some name) :
    Consistent (settings.unbind type name) where
  bound_iff other wanted := by
    rw [bound_unbind]
    simp only [Settings.unbind, Entries.get_erase]
    obtain ⟨own, found, ofType⟩ := (consistent.bound_iff type name).mp bound
    by_cases sameType : type = other
    · subst sameType
      have elsewhere := consistent.bound_iff type wanted
      rw [bound] at elsewhere
      by_cases sameName : name = wanted
      · simp [sameName]
      · simpa [sameName] using elsewhere
    · by_cases sameName : name = wanted
      · subst sameName
        have elsewhere := consistent.bound_iff other name
        simp only [found, Option.some.injEq, exists_eq_left', ofType, sameType, iff_false]
          at elsewhere
        simp [sameType, elsewhere]
      · simpa [sameType, sameName] using consistent.bound_iff other wanted
  stored wanted entry found := by
    simp only [Settings.unbind, Entries.get_erase] at found
    split_ifs at found with same
    exact consistent.stored wanted entry found

end Consistent

theorem undeclare_consistent (settings : Settings) (name : String)
    (consistent : Consistent settings) : Consistent (undeclare settings name).settings := by
  unfold undeclare
  cases found : settings.entries.get? name with
  | none => exact consistent
  | some entry =>
      exact consistent.unbind ((consistent.bound_iff entry.type name).mpr ⟨entry, found, rfl⟩)

theorem modify_consistent (settings : Settings) (type : Ty) (change : Val → Val)
    (consistent : Consistent settings) : Consistent (modify settings type change).settings := by
  unfold modify nameFor
  cases bound : settings.boundName? type with
  | none => exact consistent
  | some name =>
      obtain ⟨entry, found, ofType⟩ := (consistent.bound_iff type name).mp bound
      cases held : entry.value.get type with
      | error fault => simpa [found, held, refuse] using consistent
      | ok value =>
          simp only [found, held, accept]
          refine consistent.keep (Entries.keep_insert found ?_)
          rw [← ofType]
          exact entry.keeps_of (change value)

theorem read_from_consistent (schema : Schema) (settings : Settings) (fields : Fields)
    (consistent : Consistent settings) :
    Consistent (readFrom schema settings fields).result.settings := by
  have kept := Entries.read_keeps schema settings.entries fields
  unfold readFrom
  cases outcome : (settings.entries.read schema fields).outcome with
  | error fault => simpa [outcome, refuse] using consistent
  | ok => simpa [outcome, accept] using consistent.keep kept

section Calls

variable [Json.NumberReader]

/-- Loading one entry changes that entry's value at most, and nothing when it fails. -/
theorem load_entry_spec (schema : Schema) (file : FileState) (settings : Settings)
    (name : String) :
    ∃ entries, (loadEntry schema file settings name).settings = { settings with entries } ∧
      settings.entries.Keep entries ∧
      ∀ fault, (loadEntry schema file settings name).outcome = .error fault →
        entries = settings.entries := by
  unfold loadEntry
  split
  · exact ⟨settings.entries, rfl, Entries.Keep.refl _, fun _ _ => rfl⟩
  · exact ⟨settings.entries, rfl, Entries.Keep.refl _, fun _ _ => rfl⟩
  · split
    · exact ⟨settings.entries, rfl, Entries.Keep.refl _, fun _ _ => rfl⟩
    · rename_i source _
      have kept := Entries.read_entry_keeps schema settings.entries name source
      split
      · exact ⟨settings.entries, rfl, Entries.Keep.refl _, fun _ _ => rfl⟩
      · rename_i entries _ read
        rw [read] at kept
        exact ⟨entries, rfl, kept, fun fault failed => by cases failed⟩
      · rename_i entries _ read
        rw [read] at kept
        exact ⟨entries, rfl, kept, fun fault failed => by cases failed⟩

theorem insert_and_load_failed (schema : Schema) (file : FileState) (settings : Settings)
    (type : Ty) (name : String) (value : Val) (unbound : settings.boundName? type = none)
    (free : settings.entries.get? name = none) (fault : SettingsFault)
    (failed : (insertAndLoad schema file settings type name value).outcome = .error fault) :
    (insertAndLoad schema file settings type name value).settings = settings := by
  unfold insertAndLoad at failed ⊢
  obtain ⟨entries, loaded, _, unchanged⟩ := load_entry_spec schema file
    (settings.bind type name (.of type value)) name
  dsimp only at failed ⊢
  cases outcome : (loadEntry schema file (settings.bind type name (.of type value)) name).outcome with
  | ok => simp [outcome, accept] at failed
  | error cause =>
      have back := unchanged cause outcome
      simp only [refuse]
      rw [loaded, back]
      exact unbind_bind settings type name (.of type value) unbound free

theorem insert_and_load_consistent (schema : Schema) (file : FileState) (settings : Settings)
    (type : Ty) (name : String) (value : Val) (consistent : Consistent settings)
    (unbound : settings.boundName? type = none) (free : settings.entries.get? name = none) :
    Consistent (insertAndLoad schema file settings type name value).settings := by
  cases outcome : (insertAndLoad schema file settings type name value).outcome with
  | error fault =>
      rw [insert_and_load_failed schema file settings type name value unbound free fault outcome]
      exact consistent
  | ok =>
      obtain ⟨entries, loaded, kept, _⟩ := load_entry_spec schema file
        (settings.bind type name (.of type value)) name
      unfold insertAndLoad at outcome ⊢
      dsimp only at outcome ⊢
      split at outcome
      · simp [refuse] at outcome
      · simp only [accept]
        rw [loaded]
        exact (consistent.bind unbound free value).keep kept

theorem declare_value_consistent (schema : Schema) (file : FileState) (settings : Settings)
    (type : Ty) (name : String) (value : Val) (replace : Bool)
    (consistent : Consistent settings) :
    Consistent (declareValue schema file settings type name value replace).settings := by
  unfold declareValue
  cases bound : settings.boundName? type with
  | none =>
      cases found : settings.entries.get? name with
      | some existing => exact consistent
      | none =>
          exact insert_and_load_consistent schema file settings type name value consistent bound
            found
  | some current =>
      obtain ⟨own, held, ofType⟩ := (consistent.bound_iff type current).mp bound
      by_cases same : current = name
      · subst same
        cases replace with
        | false => simpa [accept] using consistent
        | true =>
            simp only [if_true, held, accept]
            refine consistent.keep (Entries.keep_insert held ?_)
            rw [← ofType]
            exact own.keeps_of value
      · cases replace with
        | false => simpa [same, refuse] using consistent
        | true =>
            cases found : settings.entries.get? name with
            | some existing => simpa [same, found, refuse] using consistent
            | none =>
                have unbound : (settings.unbind type current).boundName? type = none := by
                  simp [bound_unbind]
                have free : (settings.unbind type current).entries.get? name = none := by
                  simp [Settings.unbind, Entries.get_erase, found]
                simpa [same, found, accept] using
                  (consistent.unbind bound).bind unbound free value

theorem load_from_consistent (schema : Schema) (settings : Settings) (path : String)
    (file : FileState) (source : Fields) (consistent : Consistent settings) :
    Consistent (loadFrom schema settings path file source).result.settings := by
  unfold loadFrom
  split
  · exact consistent
  · split
    · exact consistent
    · rename_i document _
      have read := read_from_consistent schema settings document consistent
      dsimp only
      split <;> exact read

/-- The step of the invariant: one call, whatever its outcome. -/
theorem perform_consistent (schema : Schema) (settings : Settings) (call : RegistryCall)
    (consistent : Consistent settings) : Consistent (perform schema settings call).settings := by
  cases call with
  | declare type name file =>
      exact declare_value_consistent schema file settings type name _ false consistent
  | declareValue type name value replace file =>
      exact declare_value_consistent schema file settings type name value replace consistent
  | undeclare name => exact undeclare_consistent settings name consistent
  | access type change => exact modify_consistent settings type change consistent
  | readFrom document => exact read_from_consistent schema settings document consistent
  | loadFrom path file source =>
      exact load_from_consistent schema settings path file source consistent
  | load file =>
      simp only [perform, load]
      split
      · exact consistent
      · split
        · exact load_from_consistent schema settings _ file _ consistent
        · exact consistent
  | save file => exact consistent

theorem run_consistent (schema : Schema) (settings : Settings) (calls : List RegistryCall)
    (consistent : Consistent settings) : Consistent (run schema settings calls) := by
  induction calls generalizing settings with
  | nil => exact consistent
  | cons call rest induction =>
      exact induction _ (perform_consistent schema settings call consistent)

end Calls

end Settings

end Marshal
