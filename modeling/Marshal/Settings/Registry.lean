import Marshal.Settings.File
import Marshal.Settings.Map

/-!
A registry of named settings, one per type. Declaring a setting loads its entry from the backing
file at once, if one is configured and there; a declaration that fails leaves no trace. The state
of the backing file is given to the operations that look at it. They read and write tree documents,
which is what all formats are kept in; other sources and sinks are left out.
-/

namespace Marshal

structure Settings where
  entries : Entries
  /-- The name under which each declared type stands. -/
  bindings : List (Ty × String)
  config : SettingsConfig

/-- What an operation on a registry answers, leaves and logs. -/
structure SettingsResult where
  outcome : Except SettingsFault Unit
  settings : Settings
  log : Log

namespace Settings

def withConfig (config : SettingsConfig) : Settings := ⟨[], [], config⟩

def boundName? (settings : Settings) (type : Ty) : Option String :=
  (settings.bindings.find? fun binding => binding.1 = type).map Prod.snd

/-- The setting that a name and a type share from now on. -/
def bind (settings : Settings) (type : Ty) (name : String) (entry : Entry) : Settings :=
  { settings with
    entries := settings.entries.insert name entry
    bindings := settings.bindings.filter (fun binding => binding.1 ≠ type) ++ [(type, name)] }

def unbind (settings : Settings) (type : Ty) (name : String) : Settings :=
  { settings with
    entries := settings.entries.erase name
    bindings := settings.bindings.filter fun binding => binding.1 ≠ type }

def refuse (settings : Settings) (fault : SettingsFault) (log : Log) : SettingsResult :=
  ⟨.error fault, settings, log⟩

def accept (settings : Settings) (log : Log) : SettingsResult := ⟨.ok (), settings, log⟩

/-- The text of the backing file, or nothing where there is none to be read. -/
def backingText (settings : Settings) (file : FileState) :
    Except SettingsFault (Option (String × String)) × Log :=
  match settings.config.path with
  | none => (.ok none, [])
  | some path =>
      match file.read with
      | .ok text => (.ok (some (path, text)), [])
      | .error .missing =>
          (.ok none, Log.debug s!"settings file `{path}` does not exist")
      | .error problem => (.error (.io path problem), [])

/-- Reads one entry from the backing file. -/
def loadEntry [Json.NumberReader] (schema : Schema) (file : FileState) (settings : Settings)
    (name : String) : SettingsResult :=
  match settings.backingText file with
  | (.error fault, log) => settings.refuse fault log
  | (.ok none, log) => settings.accept log
  | (.ok (some (path, text)), log) =>
      match settings.config.format.source.setText text with
      | (.error fault, _) => settings.refuse (.marshal fault) log
      | (.ok (), source) =>
          match settings.entries.readEntry schema name source with
          | (.error fault, _, decoding) => settings.refuse (.marshal fault) (log ++ decoding)
          | (.ok true, entries, decoding) =>
              { settings with entries }.accept
                (log ++ decoding ++ Log.debug s!"setting `{name}` loaded from `{path}`")
          | (.ok false, entries, decoding) => { settings with entries }.accept (log ++ decoding)

/-- Declares a setting whose type and name are free, and loads it. -/
def insertAndLoad [Json.NumberReader] (schema : Schema) (file : FileState) (settings : Settings)
    (type : Ty) (name : String) (value : Val) : SettingsResult :=
  let loaded := loadEntry schema file (settings.bind type name (.of type value)) name
  match loaded.outcome with
  | .error fault => (loaded.settings.unbind type name).refuse fault loaded.log
  | .ok () =>
      loaded.settings.accept
        (loaded.log ++ Log.debug s!"setting `{name}` declared as `{type.name}`")

/-- Declares a setting with a value, or replaces or moves it where that is asked for. -/
def declareValue [Json.NumberReader] (schema : Schema) (file : FileState) (settings : Settings)
    (type : Ty) (name : String) (value : Val) (replace : Bool) : SettingsResult :=
  match settings.boundName? type with
  | none =>
      match settings.entries.get? name with
      | some existing => settings.refuse (.nameTaken name existing.type.name) []
      | none => insertAndLoad schema file settings type name value
  | some bound =>
      if bound = name then
        if replace then
          match settings.entries.get? name with
          | none => settings.refuse (.notDeclared name) []
          | some entry =>
              { settings with
                entries := settings.entries.insert name ⟨entry.type, .of type value⟩ }.accept
                (Log.debug s!"setting `{name}` replaced")
        else settings.accept []
      else if replace then
        match settings.entries.get? name with
        | some existing => settings.refuse (.nameTaken name existing.type.name) []
        | none =>
            ((settings.unbind type bound).bind type name (.of type value)).accept
              (Log.debug s!"setting `{bound}` moved to `{name}`")
      else settings.refuse (.typeAlreadyDeclared type.name bound) []

def declare [Json.NumberReader] (schema : Schema) (file : FileState) (settings : Settings)
    (type : Ty) (name : String) : SettingsResult :=
  declareValue schema file settings type name (schema.default type) false

def undeclare (settings : Settings) (name : String) : SettingsResult :=
  match settings.entries.get? name with
  | none => settings.refuse (.notDeclared name) []
  | some entry =>
      (settings.unbind entry.type name).accept (Log.debug s!"setting `{name}` undeclared")

def nameFor (settings : Settings) (type : Ty) : Except SettingsFault String :=
  match settings.boundName? type with
  | some name => .ok name
  | none => .error (.typeNotDeclared type.name)

def get (settings : Settings) (type : Ty) : Except SettingsFault Val :=
  match settings.nameFor type with
  | .error fault => .error fault
  | .ok name =>
      match settings.entries.get? name with
      | none => .error (.notDeclared name)
      | some entry => (entry.value.get type).mapError SettingsFault.value

/-- Changes the value of a declared type in place. -/
def modify (settings : Settings) (type : Ty) (change : Val → Val) : SettingsResult :=
  match settings.nameFor type with
  | .error fault => settings.refuse fault []
  | .ok name =>
      match settings.entries.get? name with
      | none => settings.refuse (.notDeclared name) []
      | some entry =>
          match entry.value.get type with
          | .error fault => settings.refuse (.value fault) []
          | .ok value =>
              { settings with
                entries := settings.entries.insert name
                  ⟨entry.type, .of type (change value)⟩ }.accept []

/-- The outcome of reading a document into a registry, with the document it leaves. -/
structure ReadResult where
  result : SettingsResult
  source : Fields

def readFrom (schema : Schema) (settings : Settings) (fields : Fields) : ReadResult :=
  let reading := settings.entries.read schema fields
  match reading.outcome with
  | .ok () => ⟨{ settings with entries := reading.target }.accept reading.log, reading.source⟩
  | .error fault => ⟨settings.refuse (.marshal fault) reading.log, reading.source⟩

/-- Writes all entries into a document. -/
def writeInto (schema : Schema) (settings : Settings) (fields : Fields) :
    Except SettingsFault Unit × Fields :=
  match settings.entries.write schema fields with
  | (.ok (), written) => (.ok (), written)
  | (.error fault, written) => (.error (.marshal fault), written)

/-- What saving answers, and the document and file it leaves. -/
structure SaveResult where
  outcome : Except SettingsFault Unit
  sink : Fields
  file : FileState
  log : Log

/-- Writes a registry through a document into a file. -/
def saveTo (schema : Schema) (settings : Settings) (path : String) (file : FileState)
    (sink : Fields) : SaveResult :=
  match settings.writeInto schema sink with
  | (.error fault, written) => ⟨.error fault, written, file, []⟩
  | (.ok (), written) =>
      match written.dump with
      | .error fault => ⟨.error (.marshal fault), written, file, []⟩
      | .ok text =>
          match file.write text with
          | .error problem => ⟨.error (.io path problem), written, file, []⟩
          | .ok changed =>
              ⟨.ok (), written, changed,
                Log.debug s!"{settings.entries.length} settings saved to `{path}`"⟩

/-- Reads a file through a document into a registry. -/
def loadFrom [Json.NumberReader] (schema : Schema) (settings : Settings) (path : String)
    (file : FileState) (source : Fields) : ReadResult :=
  match file.read with
  | .error problem => ⟨settings.refuse (.io path problem) [], source⟩
  | .ok text =>
      match source.setText text with
      | (.error fault, unchanged) => ⟨settings.refuse (.marshal fault) [], unchanged⟩
      | (.ok (), document) =>
          let read := readFrom schema settings document
          match read.result.outcome with
          | .error _ => read
          | .ok () =>
              ⟨read.result.settings.accept
                (read.result.log ++ Log.debug s!"settings loaded from `{path}`"), read.source⟩

def save (schema : Schema) (settings : Settings) (file : FileState) : SaveResult :=
  match settings.config.path with
  | none => ⟨.error .noBackingFile, settings.config.format.sink, file, []⟩
  | some path => saveTo schema settings path file settings.config.format.sink

/-- Reads the backing file; where there is none, nothing changes. -/
def load [Json.NumberReader] (schema : Schema) (settings : Settings) (file : FileState) :
    SettingsResult :=
  match settings.config.path with
  | none => settings.refuse .noBackingFile []
  | some path =>
      if file.exists? then
        (loadFrom schema settings path file settings.config.format.source).result
      else settings.accept (Log.debug s!"settings file `{path}` does not exist")

def graphRoot : String := "Settings"

/-- The graph of all settings as text. -/
def graph (schema : Schema) (settings : Settings) : Except SettingsFault String :=
  match ((Entries.label graphRoot).andThen (settings.entries.describe schema graphRoot)) .empty with
  | (.ok (), graph) => .ok (graph.render graphRoot)
  | (.error fault, _) => .error (.marshal fault)

end Settings

end Marshal
