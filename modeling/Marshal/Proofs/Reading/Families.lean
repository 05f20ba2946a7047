import Marshal.Proofs.Json.RoundTrip
import Marshal.Proofs.Reading.Alike

/-!
# Readers do not see the integer family of a natural

A natural in a document is narrowed to the same value from either integer family, and refused with a
fault of the same kind. So what a text tells of a document is all that a reading goes by.
-/

namespace Marshal

namespace Node

theorem as_read_fields_eq {left right : Fields} : asReadFields left = asReadFields right ↔
    List.Forall₂ (fun first second => first.1 = second.1 ∧ first.2.asRead = second.2.asRead)
      left right := by
  induction left generalizing right with
  | nil => cases right <;> simp [asReadFields]
  | cons field rest induction =>
      cases right with
      | nil => simp [asReadFields]
      | cons other more => simp [asReadFields, induction, and_assoc]

theorem as_read_items_eq {left right : List Node} : asReadItems left = asReadItems right ↔
    List.Forall₂ (fun first second => first.asRead = second.asRead) left right := by
  induction left generalizing right with
  | nil => cases right <;> simp [asReadItems]
  | cons node rest induction =>
      cases right with
      | nil => simp [asReadItems]
      | cons other more => simp [asReadItems, induction]

mutual

theorem depth_as_read (node : Node) : node.asRead.depth = node.depth := by
  cases node with
  | int value =>
      rw [asRead]
      split_ifs <;> rfl
  | struct fields => exact congrArg (· + 1) (depth_as_read_fields fields)
  | array items cursor => exact congrArg (· + 1) (depth_as_read_items items)
  | _ => rfl

theorem depth_as_read_fields (fields : List (String × Node)) :
    depthFields (asReadFields fields) = depthFields fields := by
  cases fields with
  | nil => rfl
  | cons field rest =>
      rw [asReadFields, depthFields, depthFields, depth_as_read, depth_as_read_fields rest]

theorem depth_as_read_items (items : List Node) :
    depthItems (asReadItems items) = depthItems items := by
  cases items with
  | nil => rfl
  | cons node rest =>
      rw [asReadItems, depthItems, depthItems, depth_as_read, depth_as_read_items rest]

end

mutual

theorem as_read_again (node : Node) : node.asRead.asRead = node.asRead := by
  cases node with
  | int value =>
      rw [asRead]
      split_ifs with negative
      · rw [asRead, if_pos negative]
      · rfl
  | struct fields => exact congrArg Node.struct (as_read_fields_again fields)
  | array items cursor => exact congrArg (Node.array · 0) (as_read_items_again items)
  | _ => rfl

theorem as_read_fields_again (fields : List (String × Node)) :
    asReadFields (asReadFields fields) = asReadFields fields := by
  cases fields with
  | nil => rfl
  | cons field rest =>
      rw [asReadFields, asReadFields, as_read_again, as_read_fields_again rest]

theorem as_read_items_again (items : List Node) :
    asReadItems (asReadItems items) = asReadItems items := by
  cases items with
  | nil => rfl
  | cons node rest =>
      rw [asReadItems, asReadItems, as_read_again, as_read_items_again rest]

end

theorem as_read_null (node : Node) : node.asRead.isNull = node.isNull := by
  cases node with
  | int value =>
      rw [asRead]
      split_ifs <;> rfl
  | _ => rfl

end Node

/-- A natural is the same integer in both families. -/
theorem Primitive.integer_natural {value : Int64} (natural : ¬ value.toInt < 0) :
    integer? (Scalar.held (.uint (.ofNat value.toInt.toNat))) =
      integer? (Scalar.held (.int value)) := by
  have below := value.toInt_lt
  have kept : ((UInt64.ofNat value.toInt.toNat).toNat : Int) = value.toInt := by
    rw [UInt64.toNat_ofNat_of_lt' (Nat.lt_trans (m := 2 ^ 63) (by omega) (by decide))]
    omega
  simp only [Scalar.held, kept]
  rfl

namespace Fault

variable {left middle right : Fault}

/-- Faults of one kind that lead to one place. -/
def Akin (left right : Fault) : Prop := left.kind = right.kind ∧ left.trail = right.trail

theorem Akin.refl (fault : Fault) : fault.Akin fault := ⟨rfl, rfl⟩

theorem Akin.join (akin : left.Akin middle) (other : right.Akin middle) : left.Akin right :=
  ⟨akin.1.trans other.1.symm, akin.2.trans other.2.symm⟩

end Fault

section Narrowing

variable {left right : AnyValue}

/-- Sources that hold the same integer, and no number of another kind, are narrowed alike. -/
theorem Primitive.narrow_akin (integers : integer? left = integer? right)
    (doubles : left.downcast? .double = right.downcast? .double)
    (flags : left.downcast? .bool = right.downcast? .bool) (scalar : Primitive) :
    Agree Fault.Akin Eq (scalar.narrow left) (scalar.narrow right) := by
  have numbers : number? left = number? right := by rw [number?, number?, doubles, integers]
  cases scalar with
  | bool =>
      rw [narrow, narrow, flags]
      cases right.downcast? .bool with
      | some value => exact .ok rfl
      | none => exact .error ⟨rfl, rfl⟩
  | int kind =>
      rw [narrow, narrow, narrowInt, narrowInt, integers]
      cases integer? right with
      | none => exact .error ⟨rfl, rfl⟩
      | some number => exact .refl Fault.Akin.refl _
  | single =>
      rw [narrow, narrow, numbers]
      cases number? right with
      | none => exact .error ⟨rfl, rfl⟩
      | some number => exact .refl Fault.Akin.refl _
  | double =>
      rw [narrow, narrow, numbers]
      cases number? right with
      | none => exact .error ⟨rfl, rfl⟩
      | some number => exact .ok rfl

theorem Node.narrow_as_read (node : Node) (scalar : Primitive) :
    Agree Fault.Akin Eq (node.scalarValue.bind scalar.narrow)
      (node.asRead.scalarValue.bind scalar.narrow) := by
  cases node with
  | int value =>
      rw [asRead]
      split_ifs with negative
      · exact .refl Fault.Akin.refl _
      · exact Primitive.narrow_akin (Primitive.integer_natural negative).symm rfl rfl scalar
  | _ => exact .refl Fault.Akin.refl _

theorem Node.text_as_read (node : Node) :
    Agree Fault.Akin Eq (node.scalarValue.bind fun source => source.getOrFault .string)
      (node.asRead.scalarValue.bind fun source => source.getOrFault .string) := by
  cases node with
  | int value =>
      rw [asRead]
      split_ifs
      · exact .refl Fault.Akin.refl _
      · exact .error ⟨rfl, rfl⟩
  | _ => exact .refl Fault.Akin.refl _

theorem Node.structs_as_read (node : Node) :
    Agree Fault.Akin (fun fields told => asReadFields fields = asReadFields told)
      node.structFields node.asRead.structFields := by
  cases node with
  | int value =>
      rw [asRead]
      split_ifs <;> exact .error ⟨rfl, rfl⟩
  | struct fields => exact .ok (as_read_fields_again fields).symm
  | _ => exact .error ⟨rfl, rfl⟩

theorem Node.arrays_as_read (node : Node) :
    Agree Fault.Akin (fun slots told => asReadItems slots.items = asReadItems told.items ∧
      slots.cursor = told.cursor) node.arraySlots node.asRead.arraySlots := by
  cases node with
  | int value =>
      rw [asRead]
      split_ifs <;> exact .error ⟨rfl, rfl⟩
  | array items cursor => exact .ok ⟨(as_read_items_again items).symm, rfl⟩
  | _ => exact .error ⟨rfl, rfl⟩

end Narrowing

/-- Documents of which a text tells the same. -/
def Likeness.told : Likeness where
  nodes left right := left.asRead = right.asRead
  faults := Fault.Akin
  fault_refl := Fault.Akin.refl
  absorbable akin := by rw [Fault.isAbsorbable, Fault.isAbsorbable, akin.1]
  in_field akin name := ⟨akin.1, congrArg (Segment.field name :: ·) akin.2⟩
  at_index akin position := ⟨akin.1, congrArg (Segment.index position :: ·) akin.2⟩
  null {left right} same := by rw [← left.as_read_null, same, right.as_read_null]
  depth {left right} same := by rw [← left.depth_as_read, same, right.depth_as_read]
  numbers {left right} same scalar :=
    (left.narrow_as_read scalar).join (same ▸ right.narrow_as_read scalar) Fault.Akin.join
      fun first second => first.trans second.symm
  texts {left right} same :=
    left.text_as_read.join (same ▸ right.text_as_read) Fault.Akin.join
      fun first second => first.trans second.symm
  structs {left right} same :=
    left.structs_as_read.join (same ▸ right.structs_as_read) Fault.Akin.join
      fun first second => Node.as_read_fields_eq.mp (first.trans second.symm)
  arrays {left right} same :=
    left.arrays_as_read.join (same ▸ right.arrays_as_read) Fault.Akin.join
      fun first second => ⟨Node.as_read_items_eq.mp (first.1.trans second.1.symm),
        first.2.trans second.2.symm⟩
  struct fields := congrArg Node.struct (Node.as_read_fields_eq.mpr fields)
  array items _ _ := congrArg (Node.array · 0) (Node.as_read_items_eq.mpr items)

end Marshal
