import Marshal.Proofs.Settings.Lookup
import Marshal.Proofs.Settings.Run
import Mathlib.Data.List.Nodup

/-!
# Entries in name order

An entry is put where its name belongs, so the order in which entries of different names come does
not matter. The entries of a registry are in name order after whatever calls.
-/

namespace Marshal

namespace Entries

theorem name_cases (left right : String) : left < right ∨ left = right ∨ right < left := by
  by_cases before : left < right
  · exact .inl before
  · by_cases same : left = right
    · exact .inr (.inl same)
    · refine .inr (.inr (String.not_le.mp fun further => same ?_))
      exact String.le_antisymm further (String.not_lt.mp before)

section Insertion

variable {known name : String} {old entry : Entry} {rest : Entries}

theorem insert_before (before : name < known) :
    insert ((known, old) :: rest) name entry = (name, entry) :: (known, old) :: rest :=
  if_pos before

theorem insert_at : insert ((name, old) :: rest) name entry = (name, entry) :: rest := by
  rw [insert, if_neg (String.lt_irrefl name), if_pos rfl]

theorem insert_after (after : known < name) :
    insert ((known, old) :: rest) name entry = (known, old) :: rest.insert name entry := by
  rw [insert, if_neg (String.lt_asymm after), if_neg]
  rintro rfl
  exact String.lt_irrefl name after

end Insertion

theorem insert_insert (entries : Entries) (name : String) (first second : Entry) :
    (entries.insert name first).insert name second = entries.insert name second := by
  induction entries with
  | nil => exact insert_at
  | cons head rest induction =>
      obtain ⟨known, old⟩ := head
      rcases name_cases name known with before | rfl | after
      · rw [insert_before before, insert_before before, insert_at]
      · rw [insert_at, insert_at, insert_at]
      · rw [insert_after after, insert_after after, insert_after after, induction]

/-- Every entry is changed under its name. -/
def revise (change : String → Entry → Entry) (entries : Entries) : Entries :=
  entries.map fun entry => (entry.1, change entry.1 entry.2)

theorem get_revise (change : String → Entry → Entry) (entries : Entries) (name : String) :
    (entries.revise change).get? name = (entries.get? name).map (change name) := by
  induction entries with
  | nil => rfl
  | cons head rest induction =>
      obtain ⟨known, entry⟩ := head
      have first : revise change ((known, entry) :: rest) =
          (known, change known entry) :: revise change rest := rfl
      rw [first, get_cons, get_cons, induction]
      split_ifs with same
      · rw [same]
        rfl
      · rfl

/-- That names stand in order, each once. -/
def Ordered (entries : Entries) : Prop := entries.names.Pairwise (· < ·)

theorem Ordered.distinct {entries : Entries} (ordered : entries.Ordered) : entries.names.Nodup := by
  apply List.Pairwise.imp _ ordered
  rintro name _ before rfl
  exact String.lt_irrefl name before

theorem mem_names_insert {entries : Entries} {name wanted : String} {entry : Entry}
    (inside : wanted ∈ (entries.insert name entry).names) :
    wanted = name ∨ wanted ∈ entries.names := by
  induction entries with
  | nil => exact .inl (List.mem_singleton.mp inside)
  | cons head rest induction =>
      obtain ⟨known, old⟩ := head
      rcases name_cases name known with before | rfl | after
      · rw [insert_before before] at inside
        exact List.mem_cons.mp inside
      · rw [insert_at] at inside
        exact .inr inside
      · rw [insert_after after] at inside
        rcases List.mem_cons.mp inside with rfl | further
        · exact .inr List.mem_cons_self
        · exact (induction further).imp id (List.mem_cons_of_mem _)

theorem insert_ordered {entries : Entries} (ordered : entries.Ordered) (name : String)
    (entry : Entry) : (entries.insert name entry).Ordered := by
  induction entries with
  | nil => exact List.pairwise_singleton _ _
  | cons head rest induction =>
      obtain ⟨known, old⟩ := head
      obtain ⟨least, further⟩ := List.pairwise_cons.mp ordered
      rcases name_cases name known with before | rfl | after
      · rw [insert_before before]
        refine List.pairwise_cons.mpr ⟨?_, ordered⟩
        intro other inside
        rcases List.mem_cons.mp inside with rfl | inside
        · exact before
        · exact String.lt_trans before (least other inside)
      · rw [insert_at]
        exact ordered
      · rw [insert_after after]
        refine List.pairwise_cons.mpr ⟨?_, induction further⟩
        intro other inside
        rcases mem_names_insert inside with rfl | inside
        · exact after
        · exact least other inside

theorem erase_ordered {entries : Entries} (ordered : entries.Ordered) (name : String) :
    (entries.erase name).Ordered :=
  ordered.sublist (List.filter_sublist.map Prod.fst)

theorem decode_all_names (schema : Schema) (entries : Entries) (fields : Fields)
    (outcome : (decodeAll schema entries fields).outcome = .ok ()) :
    (decodeAll schema entries fields).target.names = entries.names := by
  induction entries generalizing fields with
  | nil => rfl
  | cons head rest induction =>
      obtain ⟨known, entry⟩ := head
      simp only [decodeAll] at outcome ⊢
      cases decoded : (decodeEntry schema known entry fields).outcome with
      | error fault => simp [decoded] at outcome
      | ok =>
          simp only [decoded] at outcome ⊢
          exact congrArg (known :: ·) (induction _ outcome)

theorem read_ordered (schema : Schema) {entries : Entries} (ordered : entries.Ordered)
    (fields : Fields) : (entries.read schema fields).target.Ordered := by
  unfold read
  cases outcome : (decodeAll schema entries fields).outcome with
  | error fault => simpa only [outcome] using ordered
  | ok =>
      have names := decode_all_names schema entries fields outcome
      simp only [outcome]
      rwa [Ordered, names]

theorem read_entry_ordered (schema : Schema) {entries : Entries} (ordered : entries.Ordered)
    (name : String) (fields : Fields) : (entries.readEntry schema name fields).2.1.Ordered := by
  unfold readEntry
  split
  · exact ordered
  · split_ifs
    · dsimp only
      split
      · exact insert_ordered ordered name _
      · exact ordered
    · exact ordered

end Entries

namespace Settings

variable {settings : Settings}

theorem modify_ordered (ordered : settings.entries.Ordered) (type : Ty) (change : Val → Val) :
    (modify settings type change).settings.entries.Ordered := by
  unfold modify
  split
  · exact ordered
  · split
    · exact ordered
    · split
      · exact ordered
      · exact Entries.insert_ordered ordered _ _

theorem read_from_ordered (schema : Schema) (ordered : settings.entries.Ordered) (fields : Fields) :
    (readFrom schema settings fields).result.settings.entries.Ordered := by
  unfold readFrom
  dsimp only
  split
  · exact Entries.read_ordered schema ordered fields
  · exact ordered

section Calls

variable [Json.NumberReader]

theorem load_entry_ordered (schema : Schema) (file : FileState) (ordered : settings.entries.Ordered)
    (name : String) : (loadEntry schema file settings name).settings.entries.Ordered := by
  unfold loadEntry
  split
  · exact ordered
  · exact ordered
  · split
    · exact ordered
    · rename_i document _
      have read := Entries.read_entry_ordered schema ordered name document
      split
      · exact ordered
      · rename_i entries _ same
        rwa [same] at read
      · rename_i entries _ same
        rwa [same] at read

theorem declare_value_ordered (schema : Schema) (file : FileState)
    (ordered : settings.entries.Ordered) (type : Ty) (name : String) (value : Val) (replace : Bool) :
    (declareValue schema file settings type name value replace).settings.entries.Ordered := by
  have bound (entry : Entry) : (settings.bind type name entry).entries.Ordered :=
    Entries.insert_ordered ordered name entry
  unfold declareValue
  split
  · split
    · exact ordered
    · have loaded := load_entry_ordered schema file (bound (.of type value)) name
      unfold insertAndLoad
      dsimp only
      split
      · exact Entries.erase_ordered loaded name
      · exact loaded
  · split_ifs
    · split
      · exact ordered
      · exact Entries.insert_ordered ordered name _
    · exact ordered
    · split
      · exact ordered
      · exact Entries.insert_ordered (Entries.erase_ordered ordered _) name _
    · exact ordered

theorem load_from_ordered (schema : Schema) (ordered : settings.entries.Ordered) (path : String)
    (file : FileState) (source : Fields) :
    (loadFrom schema settings path file source).result.settings.entries.Ordered := by
  unfold loadFrom
  split
  · exact ordered
  · split
    · exact ordered
    · dsimp only
      split
      · exact read_from_ordered schema ordered _
      · exact read_from_ordered schema ordered _

/-- The step of the invariant: one call, whatever its outcome. -/
theorem perform_ordered (schema : Schema) (call : RegistryCall) (ordered : settings.entries.Ordered) :
    (perform schema settings call).settings.entries.Ordered := by
  cases call with
  | declare type name file => exact declare_value_ordered schema file ordered type name _ false
  | declareValue type name value replace file =>
      exact declare_value_ordered schema file ordered type name value replace
  | undeclare name =>
      simp only [perform, undeclare]
      split
      · exact ordered
      · exact Entries.erase_ordered ordered name
  | access type change => exact modify_ordered ordered type change
  | readFrom document => exact read_from_ordered schema ordered document
  | loadFrom path file source => exact load_from_ordered schema ordered path file source
  | load file =>
      simp only [perform, load]
      split
      · exact ordered
      · split
        · exact load_from_ordered schema ordered _ file _
        · exact ordered
  | save file => exact ordered

/-- After any calls on an empty registry the entries stand in name order. -/
theorem run_ordered (schema : Schema) (config : SettingsConfig) (calls : List RegistryCall) :
    (run schema (withConfig config) calls).entries.Ordered := by
  suffices all : ∀ settings : Settings, settings.entries.Ordered →
      (run schema settings calls).entries.Ordered from all _ .nil
  induction calls with
  | nil => exact fun _ ordered => ordered
  | cons call rest induction =>
      exact fun settings ordered => induction _ (perform_ordered schema call ordered)

end Calls

end Settings

end Marshal
