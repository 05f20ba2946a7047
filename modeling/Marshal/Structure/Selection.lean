import Marshal.Read.Value

/-!
Writing and reading some of a structure's members. The members are chosen by the identities of
their fields, in any order and with repetitions, and are taken in declaration order. All
identities are looked up before anything is written or read.
-/

namespace Marshal

namespace Member

/-- The positions of the members with the given identities, as they are asked for. -/
def positions (owner : String) (members : List Member) : List FieldId → Except Fault (List Nat)
  | [] => .ok []
  | id :: rest =>
      match positionOf? members id with
      | none => .error (.of (.undeclaredField owner id.offset))
      | some position =>
          match positions owner members rest with
          | .error fault => .error fault
          | .ok more => .ok (position :: more)

/-- The chosen members in declaration order, each once. -/
def select (owner : String) (members : List Member) (ids : List FieldId) :
    Except Fault (List Member) :=
  match positions owner members ids with
  | .error fault => .error fault
  | .ok chosen => .ok ((members.zipIdx.filter fun entry => chosen.contains entry.2).map Prod.fst)

end Member

namespace Schema

/-- The members of a structure that have the given identities. -/
def selected (schema : Schema) (name : String) (ids : List FieldId) : Except Fault (List Member) :=
  match (schema.structureInfo name).members with
  | .error fault => .error fault
  | .ok members => Member.select (schema.structureInfo name).label members ids

def writePartial {Structs Arrays : Type} (schema : Schema) (sink : Sink Structs Arrays)
    (name : String) (value : Val) (ids : List FieldId) : Step Structs :=
  match schema.selected name ids with
  | .error fault => .fail fault
  | .ok members =>
      writeMembers schema sink (writeStructure schema sink value.depth) value members

def readPartial (schema : Schema) (name : String) (target : Val) (ids : List FieldId)
    (fields : Fields) : Reading Val Fields :=
  match schema.selected name ids with
  | .error fault => ⟨.error fault, target, fields, []⟩
  | .ok members =>
      readMembers schema (readStructure schema (Node.depth (.struct fields))) target fields members

end Schema

end Marshal
