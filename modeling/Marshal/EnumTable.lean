import Marshal.Fault

/-!
Tables that give enumerators their names. A table is declared entry by entry; the first entry
that repeats a name or a value decides the fault, a name before a value. A declared table is
not empty.
-/

namespace Marshal

structure EnumTable (Enumerator : Type) where
  entries : List (String × Enumerator)

namespace EnumTable

variable {Enumerator : Type} [DecidableEq Enumerator]

def nameOf? (table : EnumTable Enumerator) (value : Enumerator) : Option String :=
  (table.entries.find? fun entry => entry.2 = value).map Prod.fst

def valueOf? (table : EnumTable Enumerator) (name : String) : Option Enumerator :=
  (table.entries.find? fun entry => entry.1 = name).map Prod.snd

def names (table : EnumTable Enumerator) : List String := table.entries.map Prod.fst

def add (owner : String) (entries : List (String × Enumerator)) (entry : String × Enumerator) :
    Except Fault (List (String × Enumerator)) :=
  if entries.any fun declared => declared.1 = entry.1 then
    .error (.of (.enumeratorNameRepeated entry.1 owner))
  else
    match entries.find? fun declared => declared.2 = entry.2 with
    | some other => .error (.of (.enumeratorValueRepeated other.1 entry.1 owner))
    | none => .ok (entries ++ [entry])

def addAll (owner : String) (entries : List (String × Enumerator)) :
    List (String × Enumerator) → Except Fault (List (String × Enumerator))
  | [] => .ok entries
  | entry :: rest =>
      match add owner entries entry with
      | .ok extended => addAll owner extended rest
      | .error fault => .error fault

/-- The table of an enumeration, `owner` being its full name. -/
def declare (owner : String) (entries : List (String × Enumerator)) :
    Except Fault (EnumTable Enumerator) :=
  match addAll owner [] entries with
  | .error fault => .error fault
  | .ok [] => .error (.of (.noEnumerators owner))
  | .ok declared => .ok ⟨declared⟩

end EnumTable

end Marshal
