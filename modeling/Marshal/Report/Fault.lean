import Marshal.AnyValue
import Marshal.Log
import Marshal.Settings.Fault
import Marshal.Tree.View

/-!
Outcomes as documents. A success says so; a fault gives its family, its words and its trail.
-/

namespace Marshal.Report

def kindName : FaultKind → String
  | .declaration => "Declaration"
  | .structural => "Structural"
  | .typeMismatch => "TypeMismatch"
  | .range => "Range"
  | .lookup => "Lookup"
  | .format => "Format"

def success : Fields := [("ok", .bool true)]

def failure (family message : String) : Fields :=
  [("error", .text family), ("message", .text message)]

/-- Of a malformed text no more is said than that it is one. -/
def problemText : Json.Problem → String
  | .malformed _ _ => "invalid JSON"
  | problem => problem.message

/-- A fault in the words that are reported. -/
def reported (fault : Fault) : Fault :=
  match fault.cause with
  | .unreadableText problem => ⟨.stated .format (problemText problem), fault.trail⟩
  | _ => fault

def fault (fault : Fault) : Fields :=
  failure (kindName fault.kind) (reported fault).message ++ [("path", .text fault.trail.text)]

def outcome {Value : Type} : Except Fault Value → Fields
  | .ok _ => success
  | .error found => fault found

def anyFault (fault : AnyFault) : Fields :=
  failure (match fault with
    | .empty _ => "Empty"
    | .mismatch _ _ => "Mismatch") fault.message

/-- The words of the file system are not given. -/
def settingsFault (found : SettingsFault) : Fields :=
  ("lookup", .bool found.isLookup) ::
    match found with
    | .nameTaken _ _ => failure "NameTaken" found.message
    | .typeAlreadyDeclared _ _ => failure "TypeAlreadyDeclared" found.message
    | .notDeclared _ => failure "NotDeclared" found.message
    | .typeNotDeclared _ => failure "TypeNotDeclared" found.message
    | .noBackingFile => failure "NoBackingFile" found.message
    | .marshal inner =>
        let shown := SettingsFault.marshal (reported inner)
        failure ("Assemble." ++ kindName inner.kind) shown.message ++
          [("path", .text inner.trail.text)]
    | .io _ _ => [("error", .text "Io")]
    | .value _ => failure "Value" found.message

def settingsOutcome {Value : Type} : Except SettingsFault Value → Fields
  | .ok _ => success
  | .error found => settingsFault found

def segment : Segment → Node
  | .field name => .text name
  | .index position => .count position

/-- All that there is to say about a fault. -/
def faultInFull (fault : Fault) : Fields :=
  [("message", .text fault.message), ("kind", .text (kindName fault.kind)),
    ("reason", .text fault.cause.message), ("source", .text fault.cause.message),
    ("path", .text fault.trail.text), ("len", .count fault.trail.length),
    ("empty", .bool fault.trail.isEmpty), ("absorbable", .bool fault.isAbsorbable),
    ("segments", .list (fault.trail.map segment))]

def levelName : LogLevel → String
  | .debug => "DEBUG"
  | .warning => "WARN"
  | .error => "ERROR"

def log (records : Log) : Node :=
  .list (records.map fun record => .texts [levelName record.level, record.text])

end Marshal.Report
