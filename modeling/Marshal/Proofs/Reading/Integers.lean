import Marshal.Proofs.Reading.Families
import Marshal.Proofs.RoundTrip.Values

/-!
# Integers of either family

A document can hold a natural in either integer family. No reading sees which one it is, at whatever
depth: the number is taken for an integer target exactly where the target's range holds it, and it
arrives as it is.
-/

namespace Marshal

namespace Node

/-- The integer that a node is, in either family. -/
def integer? : Node → Option Int
  | .int value => some value.toInt
  | .uint value => some value.toNat
  | _ => none

mutual

/-- That two documents differ in the families of some of their integers only, at any depth. How far
arrays have been read does not count. -/
inductive SameIntegers : Node → Node → Prop
  | same (node : Node) : SameIntegers node node
  | integer {left right : Node} {number : Int} (first : left.integer? = some number)
      (second : right.integer? = some number) : SameIntegers left right
  | struct {left right : Fields} (fields : SameIntegersFields left right) :
      SameIntegers (.struct left) (.struct right)
  | array {left right : List Node} (items : SameIntegersItems left right)
      (leftCursor rightCursor : Nat) :
      SameIntegers (.array left leftCursor) (.array right rightCursor)

inductive SameIntegersFields : List (String × Node) → List (String × Node) → Prop
  | nil : SameIntegersFields [] []
  | cons {left right : Node} {leftRest rightRest : List (String × Node)} (name : String)
      (node : SameIntegers left right) (rest : SameIntegersFields leftRest rightRest) :
      SameIntegersFields ((name, left) :: leftRest) ((name, right) :: rightRest)

inductive SameIntegersItems : List Node → List Node → Prop
  | nil : SameIntegersItems [] []
  | cons {left right : Node} {leftRest rightRest : List Node} (node : SameIntegers left right)
      (rest : SameIntegersItems leftRest rightRest) :
      SameIntegersItems (left :: leftRest) (right :: rightRest)

end

theorem as_read_integer {node : Node} {number : Int} (held : node.integer? = some number) :
    node.asRead = if number < 0 then .int (.ofInt number) else .uint (.ofNat number.toNat) := by
  cases node with
  | int value =>
      cases held
      rw [asRead, Int64.ofInt_toInt]
  | uint value =>
      cases held
      have natural : ¬ (value.toNat : Int) < 0 := by omega
      rw [if_neg natural, Int.toNat_natCast, UInt64.ofNat_toNat]
      rfl
  | _ => cases held

mutual

/-- A text tells the same of two documents that hold the same integers. -/
theorem SameIntegers.told {left right : Node} (same : SameIntegers left right) :
    left.asRead = right.asRead := by
  cases same with
  | same => rfl
  | integer first second => rw [as_read_integer first, as_read_integer second]
  | struct fields => exact congrArg Node.struct fields.told
  | array items => exact congrArg (Node.array · 0) items.told

theorem SameIntegersFields.told {left right : List (String × Node)}
    (same : SameIntegersFields left right) : asReadFields left = asReadFields right := by
  cases same with
  | nil => rfl
  | cons name node rest => rw [asReadFields, asReadFields, node.told, rest.told]

theorem SameIntegersItems.told {left right : List Node} (same : SameIntegersItems left right) :
    asReadItems left = asReadItems right := by
  cases same with
  | nil => rfl
  | cons node rest => rw [asReadItems, asReadItems, node.told, rest.told]

end

end Node

namespace Reading

variable {State : Type}

/-- That two readings succeed or fail together, for faults of one kind at one place, and make the same
of their targets. -/
structure Agrees (left right : Reading Val State) : Prop where
  succeed : left.outcome = .ok () ↔ right.outcome = .ok ()
  faults : ∀ first second, left.outcome = .error first → right.outcome = .error second →
    first.Akin second
  target : left.target = right.target

theorem agrees_of_told {states : State → State → Prop} {left right : Reading Val State}
    (alike : Likeness.told.ReadingsAlike states left right) : left.Agrees right where
  succeed := alike.outcome.ok_iff
  faults first second failed other := by
    have outcome := alike.outcome
    rw [failed, other] at outcome
    cases outcome with
    | error akin => exact akin
  target := alike.target

/-- That a number has arrived in a target of a kind that holds it, and has been refused for a target of
any other kind. -/
def Receives (kind : IntKind) (number : Int) (target : Val) (reading : Reading Val State) : Prop :=
  if kind.holds number then reading.outcome = .ok () ∧ reading.target = .int number
  else reading.outcome = .error (.of (.outOfRange (toString number) kind.name)) ∧
    reading.target = target

end Reading

namespace Schema

variable {schema : Schema}

/-- What is narrowed is the integer, from whichever family. -/
theorem narrow_integer {node : Node} {number : Int} (held : node.integer? = some number)
    (kind : IntKind) :
    node.scalarValue.bind (Primitive.int kind).narrow =
      if kind.holds number then .ok (.int number)
      else .error (.of (.outOfRange (toString number) kind.name)) := by
  cases node with
  | int value =>
      cases held
      rfl
  | uint value =>
      cases held
      rfl
  | _ => cases held

theorem read_integer (schema : Schema) (kind : IntKind) (target : Val) {State : Type}
    (site : Site State) {state : State} {node : Node} {number : Int}
    (found : site.found state = .ok node) (held : node.integer? = some number) :
    (schema.read (.int kind) target site.inlet state).Receives kind number target := by
  have read : schema.read (.int kind) target site.inlet state =
      readScalar site.inlet (Primitive.int kind).narrow target state := by
    rw [Schema.read, Ty.int, readAt]
  rw [read, Likeness.scalar_taken, found, Except.bind, narrow_integer held, Reading.Receives]
  split_ifs
  · exact ⟨rfl, rfl⟩
  · exact ⟨rfl, rfl⟩

/-- Documents that hold the same integers, some of them in different families, are read alike at every
type, as a field, as the next element and as an open struct. An integer target receives the integer
that the document holds there, and refuses exactly those that it has no room for. -/
theorem integer_families_not_seen (schema : Schema) :
    (∀ type target name left right, Node.SameIntegersFields left right →
      (schema.readNamed type target name left).Agrees (schema.readNamed type target name right)) ∧
    (∀ type target left right cursor, Node.SameIntegersItems left right →
      (schema.readNext type target ⟨left, cursor⟩).Agrees
        (schema.readNext type target ⟨right, cursor⟩)) ∧
    (∀ name target left right, Node.SameIntegersFields left right →
      (schema.readObject name target left).Agrees (schema.readObject name target right)) ∧
    ∀ kind target node number, node.integer? = some number →
      (∀ name fields, Fields.get? fields name = some node →
        (schema.readNamed (.int kind) target name fields).Receives kind number target) ∧
      ∀ slots, Slots.current? slots = some node →
        (schema.readNext (.int kind) target slots).Receives kind number target := by
  refine ⟨?_, ?_, ?_, ?_⟩
  · intro type target name left right same
    have told := Node.as_read_fields_eq.mp same.told
    exact Reading.agrees_of_told
      (schema.read_alike type target (Likeness.told.respects_field name) told)
  · intro type target left right cursor same
    have told : Likeness.told.SlotsAlike ⟨left, cursor⟩ ⟨right, cursor⟩ :=
      ⟨Node.as_read_items_eq.mp same.told, rfl⟩
    exact Reading.agrees_of_told (schema.read_alike type target Likeness.told.respects_next told)
  · intro name target left right same
    exact Reading.agrees_of_told
      (schema.object_alike name target (Node.as_read_fields_eq.mp same.told))
  · intro kind target node number held
    constructor
    · intro name fields found
      have found : (Fields.site name).found fields = .ok node := by
        simp only [Fields.site, Fields.find, found]
      exact schema.read_integer kind target (Fields.site name) found held
    · intro slots current
      have found : Slots.site.found slots = .ok node := by
        simp only [Slots.site, Slots.next, current]
      exact schema.read_integer kind target Slots.site found held

/-- The fares of a stop, each in another family in the one document than in the other. One of them is
too high for a byte. -/
theorem integer_families_not_seen_fares :
    let left : Fields := [("name", .text "North"),
      ("fares", .struct [("adult", .int 310), ("child", .uint 155)])]
    let right : Fields := [("name", .text "North"),
      ("fares", .struct [("adult", .uint 310), ("child", .int 155)])]
    let target := Route.stop "" [] .absent 3
    let reading := Route.schema.readObject "Stop" target left
    let other := Route.schema.readObject "Stop" target right
    let byte := Route.schema.readNext (.int .u8) (.int 0) ⟨[.uint 310], 0⟩
    Node.SameIntegersFields left right ∧ reading.outcome = .ok () ∧ other.outcome = .ok () ∧
      reading.target = other.target ∧
      other.target.equal (Route.stop "North" [(.text "adult", .int 310), (.text "child", .int 155)]
        .absent 3) = true ∧
      byte.outcome = .error (.of (.outOfRange "310" "u8")) ∧ byte.target = .int 0 := by
  intro left right target reading other byte
  have fares : Node.SameIntegers (.struct [("adult", .int 310), ("child", .uint 155)])
      (.struct [("adult", .uint 310), ("child", .int 155)]) :=
    .struct (.cons "adult" (.integer rfl rfl)
      (.cons "child" (.integer rfl rfl) .nil))
  have same : Node.SameIntegersFields left right :=
    .cons "name" (.same _) (.cons "fares" fares .nil)
  obtain ⟨-, -, objects, integers⟩ := integer_families_not_seen Route.schema
  have agrees : reading.Agrees other := objects "Stop" target left right same
  obtain ⟨-, next⟩ := integers .u8 (.int 0) (.uint 310) 310 rfl
  have refused : byte.Receives .u8 310 (.int 0) := next ⟨[.uint 310], 0⟩ rfl
  have read : other.outcome = .ok () := by decide +kernel
  exact ⟨same, agrees.succeed.mpr read, read, agrees.target, by decide +kernel, refused⟩

end Schema

end Marshal
