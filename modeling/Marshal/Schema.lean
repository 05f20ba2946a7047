import Marshal.EnumTable
import Marshal.Member

/-!
A schema describes the types that are referred to by name. Each structure comes with its fields,
the value it starts from and the outcome of declaring its members; each enumeration with its
table. A name that is not described counts as a structure without fields, an enumeration without
enumerators, or a text that is no field name.
-/

namespace Marshal

structure StructureInfo where
  /-- The full name, by which types refer to the structure. -/
  name : String
  /-- The name that graphs and look-up faults give. -/
  label : String
  fields : List (String × Ty)
  /-- The identities of the fields, by name. -/
  identities : List (String × FieldId)
  initial : Val
  members : Except Fault (List Member)

/-- How a program spells the values of an enumeration: by variants, counted from zero, or as
wrapped numbers. -/
inductive EnumSpelling
  | variants (names : List String)
  | wrapped (wrapper : String)
deriving DecidableEq, Repr

structure EnumerationInfo where
  name : String
  label : String
  initial : Int
  table : Except Fault (EnumTable Int)
  spelling : EnumSpelling

/-- The spelling of a value in a listing of program values. -/
def EnumerationInfo.spell (info : EnumerationInfo) (code : Int) : String :=
  match info.spelling with
  | .variants names => (names[code.toNat]?).getD ""
  | .wrapped wrapper => wrapper ++ "(" ++ toString code ++ ")"

/-- How the keys of a map stand as field names. -/
structure KeyNaming where
  toName? : String → Option String
  ofName? : String → Option String

def KeyNaming.verbatim : KeyNaming := ⟨some, some⟩

def KeyNaming.none : KeyNaming := ⟨fun _ => .none, fun _ => .none⟩

structure TextualInfo where
  name : String
  keys : KeyNaming

structure Schema where
  structures : List StructureInfo
  enumerations : List EnumerationInfo
  textuals : List TextualInfo

namespace Schema

def empty : Schema := ⟨[], [], []⟩

def structureInfo (schema : Schema) (name : String) : StructureInfo :=
  (schema.structures.find? fun info => info.name = name).getD
    ⟨name, name, [], [], .record [], .ok []⟩

def enumerationInfo (schema : Schema) (name : String) : EnumerationInfo :=
  (schema.enumerations.find? fun info => info.name = name).getD
    ⟨name, name, 0, EnumTable.declare name [], .variants []⟩

/-- Gives a structure other members. -/
def redeclare (schema : Schema) (name : String) (members : Except Fault (List Member)) : Schema :=
  { schema with
    structures := schema.structures.map fun info =>
      if info.name = name then { info with members } else info }

/-- Puts an enumeration in the place of the one of its name. -/
def replaceEnumeration (schema : Schema) (info : EnumerationInfo) : Schema :=
  { schema with
    enumerations := schema.enumerations.map fun known =>
      if known.name = info.name then info else known }

def textualKeys (schema : Schema) (name : String) : KeyNaming :=
  ((schema.textuals.find? fun info => info.name = name).map TextualInfo.keys).getD .none

/-- Maps whose keys are texts, or boxed texts, are written as structs; the other maps as arrays
of records. -/
def keyNaming? (schema : Schema) : Ty → Option KeyNaming
  | .string => some .verbatim
  | .textual name => some (schema.textualKeys name)
  | .boxed inner => schema.keyNaming? inner
  | _ => none

mutual

/-- The value of a type that nothing has been said about. -/
def default (schema : Schema) : Ty → Val
  | .primitive .bool => .bool false
  | .primitive (.int _) => .int 0
  | .primitive .single => .single .zero
  | .primitive .double => .double .zero
  | .string => .text ""
  | .textual _ => .text ""
  | .enumeration name => .enumerator (schema.enumerationInfo name).initial
  | .record name => (schema.structureInfo name).initial
  | .option _ => .absent
  | .sequence _ _ => .list []
  | .map _ _ _ => .map []
  | .tuple slots => .tuple (defaults schema slots)
  | .boxed inner => default schema inner

def defaults (schema : Schema) : List Ty → List Val
  | [] => []
  | slot :: rest => default schema slot :: defaults schema rest

end

end Schema

end Marshal
