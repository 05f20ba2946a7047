import Marshal.Proofs.Settings.Consistency

/-!
# Failed calls leave no trace

A call that fails leaves the registry as it was: a declaration withdraws what it has entered on
both sides, and a reading throws its copies away, however many entries it has decoded. A save that
fails leaves the file as it was.
-/

namespace Marshal

namespace Settings

/-- The registry is the one before, if the call has failed. -/
def Unharmed (settings : Settings) (result : SettingsResult) : Prop :=
  ∀ fault, result.outcome = .error fault → result.settings = settings

theorem unharmed_refuse (settings : Settings) (fault : SettingsFault) (log : Log) :
    Unharmed settings (settings.refuse fault log) := fun _ _ => rfl

theorem unharmed_accept (settings changed : Settings) (log : Log) :
    Unharmed settings (changed.accept log) := by
  intro fault failed
  simp [accept] at failed

theorem modify_unharmed (settings : Settings) (type : Ty) (change : Val → Val) :
    Unharmed settings (modify settings type change) := by
  unfold modify
  split
  · exact unharmed_refuse settings _ _
  · split
    · exact unharmed_refuse settings _ _
    · split
      · exact unharmed_refuse settings _ _
      · exact unharmed_accept settings _ _

theorem read_from_unharmed (schema : Schema) (settings : Settings) (fields : Fields) :
    Unharmed settings (readFrom schema settings fields).result := by
  unfold readFrom
  dsimp only
  split
  · exact unharmed_accept settings _ _
  · exact unharmed_refuse settings _ _

/-- A save touches the file with its very last step only. -/
theorem save_to_failed (schema : Schema) (settings : Settings) (path : String)
    (file : FileState) (sink : Fields) (fault : SettingsFault)
    (failed : (saveTo schema settings path file sink).outcome = .error fault) :
    (saveTo schema settings path file sink).file = file := by
  unfold saveTo at failed ⊢
  split at failed
  · rfl
  · split at failed
    · rfl
    · split at failed
      · rfl
      · cases failed

theorem save_failed (schema : Schema) (settings : Settings) (file : FileState)
    (fault : SettingsFault) (failed : (save schema settings file).outcome = .error fault) :
    (save schema settings file).file = file := by
  unfold save at failed ⊢
  split at failed
  · rfl
  · exact save_to_failed schema settings _ file _ fault failed

theorem save_to_unwritable (schema : Schema) (settings : Settings) (path : String)
    (file : FileState) (sink : Fields)
    (unwritable : (∃ fault, (writeInto schema settings sink).1 = .error fault) ∨
      ∃ fault, (writeInto schema settings sink).2.dump = .error fault) :
    ∃ fault, (saveTo schema settings path file sink).outcome = .error fault := by
  unfold saveTo
  cases writing : writeInto schema settings sink with
  | mk outcome written =>
      cases outcome with
      | error fault => exact ⟨fault, rfl⟩
      | ok =>
          rcases unwritable with ⟨fault, failed⟩ | ⟨fault, failed⟩
          · simp [writing] at failed
          · rw [writing] at failed
            exact ⟨.marshal fault, by simp [failed]⟩

variable [Json.NumberReader]

theorem declare_value_unharmed (schema : Schema) (file : FileState) (settings : Settings)
    (type : Ty) (name : String) (value : Val) (replace : Bool) :
    Unharmed settings (declareValue schema file settings type name value replace) := by
  unfold declareValue
  cases bound : settings.boundName? type with
  | none =>
      cases found : settings.entries.get? name with
      | some existing => exact unharmed_refuse settings _ _
      | none => exact insert_and_load_failed schema file settings type name value bound found
  | some current =>
      dsimp only
      split_ifs
      · split
        · exact unharmed_refuse settings _ _
        · exact unharmed_accept settings _ _
      · exact unharmed_accept settings _ _
      · split
        · exact unharmed_refuse settings _ _
        · exact unharmed_accept settings _ _
      · exact unharmed_refuse settings _ _

theorem load_from_unharmed (schema : Schema) (settings : Settings) (path : String)
    (file : FileState) (source : Fields) :
    Unharmed settings (loadFrom schema settings path file source).result := by
  unfold loadFrom
  split
  · exact unharmed_refuse settings _ _
  · split
    · exact unharmed_refuse settings _ _
    · rename_i document _
      dsimp only
      split
      · exact read_from_unharmed schema settings document
      · exact unharmed_accept settings _ _

theorem perform_unharmed (schema : Schema) (settings : Settings) (call : RegistryCall) :
    Unharmed settings (perform schema settings call) := by
  cases call with
  | declare type name file => exact declare_value_unharmed schema file settings type name _ false
  | declareValue type name value replace file =>
      exact declare_value_unharmed schema file settings type name value replace
  | undeclare name =>
      simp only [perform, undeclare]
      split
      · exact unharmed_refuse settings _ _
      · exact unharmed_accept settings _ _
  | access type change => exact modify_unharmed settings type change
  | readFrom document => exact read_from_unharmed schema settings document
  | loadFrom path file source => exact load_from_unharmed schema settings path file source
  | load file =>
      simp only [perform, load]
      split
      · exact unharmed_refuse settings _ _
      · split
        · exact load_from_unharmed schema settings _ file _
        · exact unharmed_accept settings _ _
  | save file => exact fun _ _ => rfl

/-- A call that fails, for whatever reason and at whatever point, leaves every entry, every value
and every binding as it was. A save that cannot write an entry or has no text for the document
fails and leaves the file as it was, as does every save that fails. -/
theorem failed_calls_leave_no_trace (schema : Schema) (settings : Settings) :
    (∀ call fault, (perform schema settings call).outcome = .error fault →
      (perform schema settings call).settings = settings) ∧
    (∀ path file sink, ((∃ fault, (writeInto schema settings sink).1 = .error fault) ∨
        ∃ fault, (writeInto schema settings sink).2.dump = .error fault) →
      (∃ fault, (saveTo schema settings path file sink).outcome = .error fault) ∧
        (saveTo schema settings path file sink).file = file) ∧
    ∀ file fault, (save schema settings file).outcome = .error fault →
      (save schema settings file).file = file := by
  refine ⟨perform_unharmed schema settings, ?_, save_failed schema settings⟩
  intro path file sink unwritable
  obtain ⟨fault, failed⟩ := save_to_unwritable schema settings path file sink unwritable
  exact ⟨⟨fault, failed⟩, save_to_failed schema settings path file sink fault failed⟩

end Settings

end Marshal
