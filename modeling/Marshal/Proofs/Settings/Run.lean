import Marshal.Settings.Registry

/-!
Runs of a registry. A call brings along what the backing file holds at that moment, so that a run
leaves the file free to change between any two calls, also behind the registry's back.

Documents are trees wherever a call reads or writes one. A source of another kind, which may fail at
places of its own, is not among the calls.
-/

namespace Marshal

inductive RegistryCall
  | declare (type : Ty) (name : String) (file : FileState)
  | declareValue (type : Ty) (name : String) (value : Val) (replace : Bool) (file : FileState)
  | undeclare (name : String)
  | access (type : Ty) (change : Val → Val)
  | readFrom (document : Fields)
  | loadFrom (path : String) (file : FileState) (source : Fields)
  | load (file : FileState)
  | save (file : FileState)

namespace Settings

def perform [Json.NumberReader] (schema : Schema) (settings : Settings) : RegistryCall → SettingsResult
  | .declare type name file => declare schema file settings type name
  | .declareValue type name value replace file =>
      declareValue schema file settings type name value replace
  | .undeclare name => undeclare settings name
  | .access type change => modify settings type change
  | .readFrom document => (readFrom schema settings document).result
  | .loadFrom path file source => (loadFrom schema settings path file source).result
  | .load file => load schema settings file
  | .save file =>
      let saved := save schema settings file
      ⟨saved.outcome, settings, saved.log⟩

/-- The registry after some calls, each of which may have failed. -/
def run [Json.NumberReader] (schema : Schema) (settings : Settings)
    (calls : List RegistryCall) : Settings :=
  calls.foldl (fun current call => (perform schema current call).settings) settings

end Settings

end Marshal
