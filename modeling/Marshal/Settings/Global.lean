import Marshal.Settings.Registry

/-!
The registry that a whole program shares. It is made on first use and then declares every
registered setting, in name order; a registration that fails is logged and leaves no trace. A
registry can be installed in its place as long as it has not been used.
-/

namespace Marshal

structure Registration where
  type : Ty
  name : String
deriving DecidableEq, Repr

namespace Settings

def declareRegistered [Json.NumberReader] (schema : Schema) (file : FileState) (settings : Settings) :
    List Registration → Settings × Log
  | [] => (settings, [])
  | registration :: rest =>
      let declared := declare schema file settings registration.type registration.name
      let log := match declared.outcome with
        | .ok () => declared.log
        | .error fault => declared.log ++
            Log.error s!"cannot declare global setting `{registration.name}`: {fault.message}"
      let others := declareRegistered schema file declared.settings rest
      (others.1, log ++ others.2)

/-- Registrations in name order; of equal names the earlier one stays earlier. -/
def inNameOrder (registrations : List Registration) : List Registration :=
  registrations.mergeSort fun left right => !decide (right.name < left.name)

def declareAll [Json.NumberReader] (schema : Schema) (file : FileState) (settings : Settings)
    (registrations : List Registration) : Settings × Log :=
  declareRegistered schema file settings (inNameOrder registrations)

end Settings

/-- The shared registry, which is not there before its first use. -/
structure SharedSettings where
  settings? : Option Settings

namespace SharedSettings

def unused : SharedSettings := ⟨none⟩

/-- The shared registry, made now if it is used for the first time. -/
def obtain [Json.NumberReader] (schema : Schema) (file : FileState) (registrations : List Registration)
    (shared : SharedSettings) : Settings × Log :=
  match shared.settings? with
  | some settings => (settings, [])
  | none => (Settings.withConfig .plain).declareAll schema file registrations

/-- Installs a registry, or hands it back when the shared one is there already. -/
def install [Json.NumberReader] (schema : Schema) (file : FileState) (registrations : List Registration)
    (shared : SharedSettings) (settings : Settings) :
    Except Settings Unit × SharedSettings × Log :=
  match shared.settings? with
  | some _ => (.error settings, shared, [])
  | none =>
      let declared := settings.declareAll schema file registrations
      (.ok (), ⟨some declared.1⟩, declared.2)

end SharedSettings

end Marshal
