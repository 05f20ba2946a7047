import Marshal.Fault
import Marshal.Ty
import Marshal.Val

/-!
A container for one value of any type, or for nothing. What is taken out has to be asked for by
the type it was put in with; a box and its content are different types.
-/

namespace Marshal

structure Held where
  type : Ty
  value : Val

structure AnyValue where
  held? : Option Held

inductive AnyFault
  | empty (expected : String)
  | mismatch (expected found : String)
deriving DecidableEq, Repr

namespace AnyFault

def message : AnyFault → String
  | .empty expected => s!"expected a `{expected}` but the container is empty"
  | .mismatch expected found => s!"expected a `{expected}` but the container holds a `{found}`"

def toFault : AnyFault → Fault
  | .empty expected => .of (.typeMismatch expected "nothing")
  | .mismatch expected found => .of (.typeMismatch expected found)

end AnyFault

namespace AnyValue

def none : AnyValue := ⟨.none⟩

def of (type : Ty) (value : Val) : AnyValue := ⟨some ⟨type, value⟩⟩

def hasValue (container : AnyValue) : Bool := container.held?.isSome

def type? (container : AnyValue) : Option Ty := container.held?.map Held.type

def typeName (container : AnyValue) : String :=
  match container.held? with
  | some held => held.type.name
  | .none => "nothing"

def is (container : AnyValue) (type : Ty) : Bool := container.type? = some type

def downcast? (container : AnyValue) (type : Ty) : Option Val :=
  match container.held? with
  | some held => if held.type = type then some held.value else .none
  | .none => .none

def get (container : AnyValue) (type : Ty) : Except AnyFault Val :=
  match container.held? with
  | .none => .error (.empty type.name)
  | some held =>
      if held.type = type then .ok held.value else .error (.mismatch type.name held.type.name)

/-- Moves the value out. A container that does not hold the type stays as it is. -/
def take (container : AnyValue) (type : Ty) : Except AnyFault Val × AnyValue :=
  match container.get type with
  | .ok value => (.ok value, none)
  | .error fault => (.error fault, container)

/-- Changes the value in place. A container that does not hold the type stays as it is. -/
def assign (container : AnyValue) (type : Ty) (value : Val) : Except AnyFault Unit × AnyValue :=
  match container.get type with
  | .ok _ => (.ok (), of type value)
  | .error fault => (.error fault, container)

def equal (left right : AnyValue) : Bool :=
  match left.held?, right.held? with
  | .none, .none => true
  | some left, some right => left.type = right.type && left.value.equal right.value
  | _, _ => false

/-- The value at a type, for callers whose own fault is an ordinary one. -/
def getOrFault (container : AnyValue) (type : Ty) : Except Fault Val :=
  (container.get type).mapError AnyFault.toFault

end AnyValue

end Marshal
