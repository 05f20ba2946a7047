/-!
The types that values can have. A type is data, so that it can be compared, named and looked up:
two types are the same exactly when they are equal here. Structures, enumerations and textual
types are referred to by name and described by a schema, which is what lets types be recursive.
-/

namespace Marshal

inductive IntKind
  | i8 | i16 | i32 | i64 | isize
  | u8 | u16 | u32 | u64 | usize
deriving DecidableEq, Repr

namespace IntKind

def name : IntKind → String
  | i8 => "i8" | i16 => "i16" | i32 => "i32" | i64 => "i64" | isize => "isize"
  | u8 => "u8" | u16 => "u16" | u32 => "u32" | u64 => "u64" | usize => "usize"

def isSigned : IntKind → Bool
  | i8 | i16 | i32 | i64 | isize => true
  | u8 | u16 | u32 | u64 | usize => false

/-- The width in bits; the word of the machine has sixty-four. -/
def width : IntKind → Nat
  | i8 | u8 => 8
  | i16 | u16 => 16
  | i32 | u32 => 32
  | i64 | u64 | isize | usize => 64

def least (kind : IntKind) : Int := if kind.isSigned then -Int.pow 2 (kind.width - 1) else 0

def greatest (kind : IntKind) : Int :=
  if kind.isSigned then Int.pow 2 (kind.width - 1) - 1 else Int.pow 2 kind.width - 1

def holds (kind : IntKind) (number : Int) : Bool :=
  kind.least ≤ number ∧ number ≤ kind.greatest

end IntKind

inductive Primitive
  | bool
  | int (kind : IntKind)
  | single
  | double
deriving DecidableEq, Repr

def Primitive.name : Primitive → String
  | .bool => "bool"
  | .int kind => kind.name
  | .single => "f32"
  | .double => "f64"

inductive SequenceKind
  | vector
  | deque
deriving DecidableEq, Repr

inductive MapKind
  | ordered
  | hashed
  | quick
deriving DecidableEq, Repr

inductive Ty
  | primitive (scalar : Primitive)
  | string
  /-- A type of its own that is written as its text. -/
  | textual (name : String)
  | enumeration (name : String)
  | record (name : String)
  | option (inner : Ty)
  | sequence (kind : SequenceKind) (item : Ty)
  | map (kind : MapKind) (key value : Ty)
  | tuple (slots : List Ty)
  | boxed (inner : Ty)
deriving Repr

namespace Ty

mutual

def same : Ty → Ty → Bool
  | .primitive left, .primitive right => left = right
  | .string, .string => true
  | .textual left, .textual right => left = right
  | .enumeration left, .enumeration right => left = right
  | .record left, .record right => left = right
  | .option left, .option right => same left right
  | .sequence leftKind left, .sequence rightKind right => leftKind = rightKind && same left right
  | .map leftKind leftKey left, .map rightKind rightKey right =>
      leftKind = rightKind && same leftKey rightKey && same left right
  | .tuple left, .tuple right => sameSlots left right
  | .boxed left, .boxed right => same left right
  | _, _ => false

def sameSlots : List Ty → List Ty → Bool
  | [], [] => true
  | left :: leftRest, right :: rightRest => same left right && sameSlots leftRest rightRest
  | _, _ => false

end

mutual

theorem same_iff : ∀ left right : Ty, same left right = true ↔ left = right
  | .primitive _, right | .textual _, right | .enumeration _, right | .record _, right => by
      cases right <;> simp [same]
  | .string, right => by cases right <;> simp [same]
  | .option left, right => by
      cases right <;> simp [same]
      exact same_iff left _
  | .boxed left, right => by
      cases right <;> simp [same]
      exact same_iff left _
  | .sequence _ left, right => by
      cases right <;> simp [same]
      exact fun _ => same_iff left _
  | .map _ key value, right => by
      cases right <;> simp [same, same_iff key, same_iff value, and_assoc]
  | .tuple left, right => by
      cases right <;> simp [same]
      exact sameSlots_iff left _

theorem sameSlots_iff : ∀ left right : List Ty, sameSlots left right = true ↔ left = right
  | [], right => by cases right <;> simp [sameSlots]
  | left :: rest, right => by
      cases right <;> simp [sameSlots, same_iff left, sameSlots_iff rest]

end

instance : DecidableEq Ty := fun left right => decidable_of_iff _ (same_iff left right)

mutual

/-- The full name of a type, as messages give it. -/
def name : Ty → String
  | .primitive scalar => scalar.name
  | .string => "alloc::string::String"
  | .textual name | .enumeration name | .record name => name
  | .option inner => "core::option::Option<" ++ name inner ++ ">"
  | .sequence .vector item => "alloc::vec::Vec<" ++ name item ++ ">"
  | .sequence .deque item => "alloc::collections::vec_deque::VecDeque<" ++ name item ++ ">"
  | .map .ordered key value =>
      "alloc::collections::btree::map::BTreeMap<" ++ name key ++ ", " ++ name value ++ ">"
  | .map .hashed key value =>
      "std::collections::hash::map::HashMap<" ++ name key ++ ", " ++ name value ++ ">"
  | .map .quick key value =>
      "hashbrown::map::HashMap<" ++ name key ++ ", " ++ name value ++
        ", foldhash::seed::fast::FixedState>"
  | .tuple [only] => "(" ++ name only ++ ",)"
  | .tuple slots => "(" ++ slotNames slots ++ ")"
  | .boxed inner => "alloc::boxed::Box<" ++ name inner ++ ">"

def slotNames : List Ty → String
  | [] => ""
  | [last] => name last
  | slot :: rest => name slot ++ ", " ++ slotNames rest

end

def int (kind : IntKind) : Ty := .primitive (.int kind)

def bool : Ty := .primitive .bool

def double : Ty := .primitive .double

end Ty

end Marshal
