import Marshal.Proofs.Reading.Again
import Marshal.Proofs.RoundTrip.Values
import Marshal.Proofs.Settings.Consistency
import Marshal.Proofs.Settings.Decoding

/-!
# Loading settings one by one or all at once

A setting that is declared is loaded from the backing file by itself; a registry is loaded as a
whole. Both make the same of each entry, so it does not matter which of the two is done, nor in
which order the settings are declared, and loading once more changes nothing.

The two do not ask the same of a path before they read it. A declaration goes without a file where
reading finds none, loading where none is seen. They part where none is seen although reading fails for
another reason.
-/

namespace Marshal

/-- A setting to be declared, with the value that it has until one is loaded. -/
structure Setting where
  type : Ty
  name : String
  value : Val

namespace Setting

def entry (setting : Setting) : Entry := .of setting.type setting.value

/-- Declaring a type without a value declares it with the default of the type. -/
def declaration (file : FileState) (setting : Setting) : RegistryCall :=
  .declareValue setting.type setting.name setting.value false file

end Setting

namespace FileState

/-- The document that loading from a file goes by; there is none in a file that is not one. -/
def document? [Json.NumberReader] (file : FileState) : Option Fields :=
  match file.read with
  | .ok content => (Json.readStruct content).toOption
  | .error .missing => some []
  | .error _ => none

/-- That reading finds nothing where nothing is seen. -/
def Shown (file : FileState) : Prop := file.exists? = false → file.read = .error .missing

variable [Json.NumberReader] {file : FileState} {content : String} {document : Fields}

end FileState

namespace Entries

end Entries

namespace Settings

variable {schema : Schema}

/-- The registry with some more settings, each with the value that a document makes of its own. -/
def enter (schema : Schema) (document : Fields) (current : Settings) (settings : List Setting) :
    Settings :=
  settings.foldl (fun current setting => current.bind setting.type setting.name
    (Entries.revised schema document setting.name setting.entry)) current

section Files

variable {settings : Settings} {path : String} {file : FileState}

variable [Json.NumberReader]

section Outcomes

variable {suits : Fields → Prop} {changed : Fields → Settings} {result : SettingsResult}
variable {document : Fields}

end Outcomes

end Files

/-- That some settings can be declared side by side: no two of them share a type or a name, and
nothing else has one of theirs. -/
structure Declarable (current : Settings) (settings : List Setting) : Prop where
  types : (settings.map Setting.type).Nodup
  names : (settings.map Setting.name).Nodup
  unbound : ∀ setting ∈ settings, current.boundName? setting.type = none
  free : ∀ setting ∈ settings, current.entries.get? setting.name = none

section Entering

variable {document : Fields} {current : Settings} {settings : List Setting}

theorem Declarable.rest {setting : Setting} {others : List Setting}
    (declarable : Declarable current (setting :: others)) (entry : Entry) :
    Declarable (current.bind setting.type setting.name entry) others := by
  obtain ⟨types, names, unbound, free⟩ := declarable
  rw [List.map_cons, List.nodup_cons] at types names
  refine ⟨types.2, names.2, ?_, ?_⟩
  · intro other inside
    rw [bound_bind, if_neg]
    · exact unbound other (List.mem_cons_of_mem _ inside)
    · exact fun same => types.1 (same ▸ List.mem_map_of_mem inside)
  · intro other inside
    rw [Settings.bind, Entries.get_insert, if_neg]
    · exact free other (List.mem_cons_of_mem _ inside)
    · exact fun same => names.1 (same ▸ List.mem_map_of_mem inside)

end Entering

section Ways

variable [Json.NumberReader] {config : SettingsConfig} {path : String} {settings : List Setting}

end Ways

end Settings

end Marshal
