import Marshal.Fault
import Marshal.Ty
import Marshal.Val

/-!
Members of a structure: what it writes, in order. A plain member is written under its own name;
an extending member stands for all members of another structure, written at the same level. A
declaration is accepted when names, fields and all written names are distinct.
-/

namespace Marshal

/-- Identity of a field. Fields of one type that take no room share an offset; the name tells
them apart. -/
structure FieldId where
  offset : Nat
  field : String
  type : Ty
deriving DecidableEq, Repr

/-- What every member has: its name, the identity it is found by, and the way to its value. -/
structure MemberHead where
  name : String
  id : FieldId
  path : Val.Path
deriving DecidableEq, Repr

inductive Member
  | field (head : MemberHead) (type : Ty)
  | extend (head : MemberHead) (base : String) (members : List Member)

namespace Member

def head : Member → MemberHead
  | .field head _ => head
  | .extend head _ _ => head

def name (member : Member) : String := member.head.name

def id (member : Member) : FieldId := member.head.id

/-- Two members count as the same when both name and field agree. -/
def sameIdentity (left right : Member) : Bool := left.name = right.name && left.id = right.id

mutual

/-- The names that a member writes into its owner's struct. -/
def outputs : Member → List String
  | .field head _ => [head.name]
  | .extend _ _ members => outputsAll members

def outputsAll : List Member → List String
  | [] => []
  | member :: rest => outputs member ++ outputsAll rest

end

end Member

/-- One line of a declaration. An extension brings the outcome of the extended structure's own
declaration. -/
inductive MemberCall
  | field (head : MemberHead) (type : Ty)
  | extend (head : MemberHead) (base : String) (declared : Except Fault (List Member))

namespace MemberCall

def head : MemberCall → MemberHead
  | .field head _ => head
  | .extend head _ _ => head

def resolve : MemberCall → Except Fault Member
  | .field head type => .ok (.field head type)
  | .extend head base (.ok members) => .ok (.extend head base members)
  | .extend _ _ (.error fault) => .error fault

end MemberCall

namespace Declaration

/-- The first call that repeats a name or a field of an earlier one decides the fault. -/
def firstRepeat (owner : String) (earlier : List MemberHead) : List MemberCall → Option Fault
  | [] => none
  | call :: rest =>
      if earlier.any fun head => head.name = call.head.name then
        some (.of (.memberNameRepeated call.head.name owner))
      else
        match earlier.find? fun head => head.id = call.head.id with
        | some other => some (.of (.fieldRepeated other.name call.head.name owner))
        | none => firstRepeat owner (earlier ++ [call.head]) rest

/-- Records that a member writes some names, unless one of them is written already. -/
def claimOutputs (owner member : String) (written : List (String × String)) :
    List String → Except Fault (List (String × String))
  | [] => .ok written
  | output :: rest =>
      match written.find? fun earlier => earlier.1 = output with
      | some earlier => .error (.of (.outputRepeated earlier.2 member owner output))
      | none => claimOutputs owner member (written ++ [(output, member)]) rest

/-- The members in order, as long as their extensions are declared and their outputs distinct. -/
def resolveAll (owner : String) (written : List (String × String)) :
    List MemberCall → Except Fault (List Member)
  | [] => .ok []
  | call :: rest =>
      match call.resolve with
      | .error fault => .error fault
      | .ok member =>
          match claimOutputs owner member.name written member.outputs with
          | .error fault => .error fault
          | .ok claimed =>
              match resolveAll owner claimed rest with
              | .error fault => .error fault
              | .ok members => .ok (member :: members)

/-- The members of a structure, `owner` being its full name. -/
def build (owner : String) (calls : List MemberCall) : Except Fault (List Member) :=
  match firstRepeat owner [] calls with
  | some fault => .error fault
  | none => resolveAll owner [] calls

end Declaration

namespace Member

def get? (members : List Member) (name : String) : Option Member :=
  members.find? fun member => member.name = name

def positionOf? (members : List Member) (id : FieldId) : Option Nat :=
  members.findIdx? fun member => member.id = id

def find? (members : List Member) (id : FieldId) : Option Member :=
  members.find? fun member => member.id = id

def position? (members : List Member) (wanted : Member) : Option Nat :=
  members.findIdx? fun member => member.sameIdentity wanted

end Member

end Marshal
