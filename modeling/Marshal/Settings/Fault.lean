import Marshal.AnyValue

/-!
What can go wrong with a settings registry and its backing file.
-/

namespace Marshal

/-- Why a file cannot be read or written as text. -/
inductive FileProblem
  | missing
  | notText
  | directory
  /-- Anything else that the system has against it, in its words. -/
  | refused (words : String)
deriving DecidableEq, Repr

def FileProblem.message : FileProblem → String
  | .missing => "No such file or directory (os error 2)"
  | .notText => "stream did not contain valid UTF-8"
  | .directory => "Is a directory (os error 21)"
  | .refused words => words

inductive SettingsFault
  | nameTaken (name existing : String)
  | typeAlreadyDeclared (type existing : String)
  | notDeclared (name : String)
  | typeNotDeclared (type : String)
  | noBackingFile
  | marshal (fault : Fault)
  | io (path : String) (problem : FileProblem)
  | value (fault : AnyFault)
deriving DecidableEq, Repr

namespace SettingsFault

def message : SettingsFault → String
  | nameTaken name existing => s!"setting `{name}` is already declared with type `{existing}`"
  | typeAlreadyDeclared type existing =>
      s!"type `{type}` is already declared as setting `{existing}`"
  | notDeclared name => s!"no setting named `{name}` is declared"
  | typeNotDeclared type => s!"type `{type}` is not declared as a setting"
  | noBackingFile => "no backing file is configured"
  | marshal fault => fault.message
  | io path problem => s!"cannot access settings file `{path}`: {problem.message}"
  | value fault => fault.message

/-- Whether only something that was asked for is not there. -/
def isLookup : SettingsFault → Bool
  | notDeclared _ | typeNotDeclared _ => true
  | _ => false

end SettingsFault

end Marshal
