import Marshal.Settings.Fault
import Marshal.Tree.Text

/-!
What a path leads to, and the document formats that registries are kept in. Whether something is seen
at a path and what comes of reading it are two questions: where a path leads through a file, or
through a directory that may not be searched, nothing is seen and yet reading does not find that
nothing is there.

All formats are kept in tree documents. A format is known by a name and by the documents that writing
and reading start from; documents of other kinds than trees are not modelled.
-/

namespace Marshal

inductive FileState
  | absent
  | text (content : String)
  /-- Bytes that are not text. -/
  | bytes
  | directory
  /-- No file, and no directory in which one could be made. -/
  | nowhere
  /-- Whatever there is may be neither read nor written, and may not even be seen. -/
  | refused (seen : Bool) (words : String)
deriving DecidableEq, Repr

namespace FileState

/-- A file with some bytes, which may be text. -/
def ofBytes (content : ByteArray) : FileState :=
  match String.fromUTF8? content with
  | some decoded => .text decoded
  | none => .bytes

/-- Whether something is seen at a path. -/
def exists? : FileState → Bool
  | .absent | .nowhere => false
  | .text _ | .bytes | .directory => true
  | .refused seen _ => seen

def read : FileState → Except FileProblem String
  | .absent | .nowhere => .error .missing
  | .text content => .ok content
  | .bytes => .error .notText
  | .directory => .error .directory
  | .refused _ words => .error (.refused words)

/-- Whatever was in a file is replaced. -/
def write (content : String) : FileState → Except FileProblem FileState
  | .absent | .text _ | .bytes => .ok (.text content)
  | .directory => .error .directory
  | .nowhere => .error .missing
  | .refused _ words => .error (.refused words)

theorem write_ok {content : String} {file changed : FileState}
    (written : file.write content = .ok changed) : changed = .text content := by
  cases file <;> cases written <;> rfl

end FileState

structure SettingsFormat where
  name : String
  sink : Fields
  source : Fields

namespace SettingsFormat

def tree : SettingsFormat := ⟨"tree", [], []⟩

end SettingsFormat

structure SettingsConfig where
  path : Option String
  format : SettingsFormat

def SettingsConfig.plain : SettingsConfig := ⟨none, .tree⟩

end Marshal
