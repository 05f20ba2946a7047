import Marshal.Proofs.Tree.Fields
import Marshal.Fault

/-!
# Documents up to the positions of their arrays

Reading a document moves the positions of the arrays in it and changes nothing else. Trails do not
go by positions, so what a trail leads to is the same before and after a reading.
-/

namespace Marshal

namespace Node

mutual

/-- A document as it is when no array has been read from yet. -/
def rewound : Node → Node
  | .struct fields => .struct (rewoundFields fields)
  | .array items _ => .array (rewoundItems items) 0
  | .null => .null
  | .bool value => .bool value
  | .int value => .int value
  | .uint value => .uint value
  | .double value => .double value
  | .text value => .text value

def rewoundFields : List (String × Node) → List (String × Node)
  | [] => []
  | (name, node) :: rest => (name, rewound node) :: rewoundFields rest

def rewoundItems : List Node → List Node
  | [] => []
  | node :: rest => rewound node :: rewoundItems rest

end

theorem rewound_fields_get (fields : Fields) (name : String) :
    Fields.get? (rewoundFields fields) name = (fields.get? name).map rewound := by
  induction fields with
  | nil => rfl
  | cons field rest induction =>
      obtain ⟨present, node⟩ := field
      rw [rewoundFields, Fields.get?, Fields.get?]
      split_ifs
      · rfl
      · exact induction

theorem rewound_fields_put (fields : Fields) (name : String) (node : Node) :
    rewoundFields (fields.put name node) = Fields.put (rewoundFields fields) name node.rewound := by
  induction fields with
  | nil => rfl
  | cons field rest induction =>
      obtain ⟨present, old⟩ := field
      rw [rewoundFields, Fields.put, Fields.put]
      split_ifs
      · rfl
      · rw [rewoundFields, induction]

theorem rewound_items_map (items : List Node) : rewoundItems items = items.map rewound := by
  induction items with
  | nil => rfl
  | cons node rest induction => rw [rewoundItems, induction, List.map_cons]

/-- What lies at the end of a trail does not depend on positions. -/
theorem rewound_get (node : Node) (trail : Trail) :
    node.rewound.get? trail = (node.get? trail).map rewound := by
  induction trail generalizing node with
  | nil => rfl
  | cons segment rest induction =>
      cases node with
      | struct fields =>
          cases segment with
          | index position => rfl
          | field name =>
              rw [rewound, get?, get?, rewound_fields_get]
              cases Fields.get? fields name with
              | none => rfl
              | some node => exact induction node
      | array items cursor =>
          cases segment with
          | field name => rfl
          | index position =>
              rw [rewound, get?, get?, rewound_items_map, List.getElem?_map]
              cases items[position]? with
              | none => rfl
              | some node => exact induction node
      | _ => cases segment <;> rfl

theorem rewound_struct {node : Node} {fields : Fields} (same : node.rewound = .struct fields) :
    ∃ own, node = .struct own ∧ rewoundFields own = fields := by
  cases node <;> cases same
  exact ⟨_, rfl, rfl⟩

end Node

namespace Fields

/-- Putting a node where it stands already changes nothing. -/
theorem put_own {fields : Fields} {name : String} {node : Node}
    (found : fields.get? name = some node) :
    fields.put name node = fields := by
  induction fields with
  | nil => cases found
  | cons field rest induction =>
      obtain ⟨present, old⟩ := field
      rw [get?] at found
      rw [put]
      split_ifs at found ⊢
      · cases found
        rfl
      · rw [induction found]

theorem put_rewound {fields : Fields} {name : String} {old node : Node}
    (found : fields.get? name = some old) (same : node.rewound = old.rewound) :
    Node.rewoundFields (fields.put name node) = Node.rewoundFields fields := by
  rw [Node.rewound_fields_put, put_own]
  rw [Node.rewound_fields_get, found, same]
  rfl

end Fields

theorem Slots.set_rewound {items : List Node} {position : Nat} {old node : Node}
    (found : items[position]? = some old) (same : node.rewound = old.rewound) :
    Node.rewoundItems (items.set position node) = Node.rewoundItems items := by
  have own : (items.map Node.rewound)[position]? = some node.rewound := by
    rw [List.getElem?_map, found, same]
    rfl
  obtain ⟨inside, rewound⟩ := List.getElem?_eq_some_iff.mp own
  rw [Node.rewound_items_map, Node.rewound_items_map, List.map_set, ← rewound,
    List.set_getElem_self]

namespace Fault

/-- That a fault's trail leads from a node to another one. Only that of a missing field goes one name
further, to a field that the struct it comes to does not have. -/
def PointsInto (fault : Fault) (node : Node) : Prop :=
  match fault.cause with
  | .missingField name =>
      ∃ outer fields, fault.trail = outer ++ [.field name] ∧ node.get? outer = some (.struct fields) ∧
        Fields.get? fields name = none
  | _ => ∃ inner, node.get? fault.trail = some inner

/-- That a fault has arisen where it is, and not for want of a field. -/
def IsOwn (fault : Fault) : Prop := fault.trail = [] ∧ ∀ name, fault.cause ≠ .missingField name

variable {fault : Fault} {node : Node}

theorem points_into_missing {name : String} {trail : Trail} :
    PointsInto ⟨.missingField name, trail⟩ node ↔
      ∃ outer fields, trail = outer ++ [.field name] ∧ node.get? outer = some (.struct fields) ∧
        Fields.get? fields name = none := Iff.rfl

theorem points_into_other (other : ∀ name, fault.cause ≠ .missingField name) :
    fault.PointsInto node ↔ ∃ inner, node.get? fault.trail = some inner := by
  unfold PointsInto
  split
  · rename_i name cause
    exact absurd cause (other name)
  · exact Iff.rfl

theorem own_of {cause : Cause} (other : ∀ name, cause ≠ .missingField name) : IsOwn (.of cause) :=
  ⟨rfl, other⟩

theorem IsOwn.points_into (own : fault.IsOwn) (node : Node) : fault.PointsInto node := by
  rw [points_into_other own.2, own.1]
  exact ⟨node, rfl⟩

/-- A fault that points into a part points into the whole once the segment is put before it. -/
theorem PointsInto.beneath {segment : Segment} {whole part : Node}
    (leads : ∀ rest, whole.get? (segment :: rest) = part.get? rest) (points : fault.PointsInto part) :
    PointsInto ⟨fault.cause, segment :: fault.trail⟩ whole := by
  obtain ⟨cause, trail⟩ := fault
  by_cases missing : ∃ name, cause = .missingField name
  · obtain ⟨name, rfl⟩ := missing
    obtain ⟨outer, fields, same, found, absent⟩ := points_into_missing.mp points
    exact points_into_missing.mpr
      ⟨segment :: outer, fields, congrArg (segment :: ·) same, (leads outer).trans found, absent⟩
  · have other : ∀ name, cause ≠ .missingField name := fun name same => missing ⟨name, same⟩
    obtain ⟨inner, found⟩ := (points_into_other other).mp points
    exact (points_into_other other).mpr ⟨inner, (leads trail).trans found⟩

theorem PointsInto.in_field {fields : Fields} {name : String} (points : fault.PointsInto node)
    (found : fields.get? name = some node) : (fault.inField name).PointsInto (.struct fields) :=
  points.beneath fun rest => by rw [Node.get?, found, Option.bind_some]

theorem PointsInto.at_index {items : List Node} {cursor position : Nat}
    (points : fault.PointsInto node) (found : items[position]? = some node) :
    (fault.atIndex position).PointsInto (.array items cursor) :=
  points.beneath fun rest => by rw [Node.get?, found, Option.bind_some]

theorem missing_points_into {fields : Fields} {name : String} (absent : fields.get? name = none) :
    (inField name (.of (.missingField name))).PointsInto (.struct fields) :=
  points_into_missing.mpr ⟨[], fields, rfl, rfl, absent⟩

theorem points_into_rewound : fault.PointsInto node.rewound ↔ fault.PointsInto node := by
  obtain ⟨cause, trail⟩ := fault
  by_cases missing : ∃ name, cause = .missingField name
  · obtain ⟨name, rfl⟩ := missing
    rw [points_into_missing, points_into_missing]
    constructor
    · rintro ⟨outer, fields, same, found, absent⟩
      rw [Node.rewound_get, Option.map_eq_some_iff] at found
      obtain ⟨last, reached, rewound⟩ := found
      obtain ⟨own, rfl, rfl⟩ := Node.rewound_struct rewound
      rw [Node.rewound_fields_get, Option.map_eq_none_iff] at absent
      exact ⟨outer, own, same, reached, absent⟩
    · rintro ⟨outer, fields, same, found, absent⟩
      refine ⟨outer, Node.rewoundFields fields, same, ?_, ?_⟩
      · rw [Node.rewound_get, found]
        rfl
      · rw [Node.rewound_fields_get, absent]
        rfl
  · have other : ∀ name, cause ≠ .missingField name := fun name same => missing ⟨name, same⟩
    rw [points_into_other other, points_into_other other, Node.rewound_get]
    cases node.get? trail <;> simp

/-- Where a fault points does not depend on how far the document has been read. -/
theorem PointsInto.of_rewound {other : Node} (points : fault.PointsInto node)
    (same : node.rewound = other.rewound) : fault.PointsInto other := by
  rw [← points_into_rewound, ← same, points_into_rewound]
  exact points

end Fault

end Marshal
