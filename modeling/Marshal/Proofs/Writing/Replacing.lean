import Marshal.Proofs.RoundTrip.Forms

/-!
# Writing replaces what stood there

What is written under a name does not depend on the document: whatever stood there is gone, and all
other fields stay where they are. An optional without content is not written, so what stood under its
name stays as well.
-/

namespace Marshal

namespace Fields

/-- The fields of all other names, in document order. -/
def beside (name : String) (fields : Fields) : Fields := fields.filter fun field => field.1 ≠ name

theorem beside_put (fields : Fields) (name : String) (node : Node) :
    (fields.put name node).beside name = fields.beside name := by
  induction fields with
  | nil => simp [put, beside]
  | cons field rest induction =>
      obtain ⟨present, old⟩ := field
      rw [put]
      split_ifs with same
      · simp [beside, same]
      · simp only [beside, List.filter_cons] at induction ⊢
        rw [induction]

end Fields

namespace Schema

/-- In any two documents, a value that can be written under a name leaves there one and the same node,
and all other fields as they were. A value that is left out changes neither. -/
theorem written_over (schema : Schema) (type : Ty) (value : Val) (name : String)
    (left right : Fields) (ok : (schema.writeNamed type value name left).1 = .ok ()) :
    let first := schema.writeNamed type value name left
    let second := schema.writeNamed type value name right
    second.1 = .ok () ∧ first.2.beside name = left.beside name ∧
      second.2.beside name = right.beside name ∧
      (type.leavesOut value = false →
        ∃ node, first.2.get? name = some node ∧ second.2.get? name = some node) ∧
      (type.leavesOut value = true → first.2 = left ∧ second.2 = right) := by
  intro first second
  obtain ⟨imprint, empty, uniform⟩ :=
    schema.write_at_leaves_imprint (writeStructure schema treeSink value.depth) type value
  have written (fields : Fields) : schema.writeNamed type value name fields =
      imprint.on (Fields.place name) fields := congrFun (uniform (Fields.place name)) fields
  simp only [first, second, written] at ok ⊢
  rw [← empty]
  cases imprint with
  | filled outcome node solid =>
      have own (fields : Fields) : (fields.put name node).get? name = some node := by
        rw [Fields.get_put, if_pos rfl]
      exact ⟨ok, Fields.beside_put left name node, Fields.beside_put right name node,
        fun _ => ⟨node, own left, own right⟩, nofun⟩
  | empty => exact ⟨rfl, rfl, rfl, nofun, fun _ => ⟨rfl, rfl⟩⟩
  | refused fault => cases ok

/-- A count that is written over a struct, and into a document without one. -/
theorem written_over_count :
    let left : Fields := [("count", .struct [("old", .null)]), ("name", .text "North")]
    let right : Fields := [("name", .text "North")]
    let first := Route.schema.writeNamed Route.count (.present (.int 4)) "count" left
    let second := Route.schema.writeNamed Route.count (.present (.int 4)) "count" right
    first.1 = .ok () ∧ first.2.beside "count" = right ∧ second.2.beside "count" = right ∧
      ∃ node, first.2.get? "count" = some node ∧ second.2.get? "count" = some node := by
  intro left right first second
  have ok : first.1 = .ok () := by decide +kernel
  obtain ⟨-, leftBeside, rightBeside, replaced, -⟩ :=
    Route.schema.written_over Route.count (.present (.int 4)) "count" left right ok
  exact ⟨ok, leftBeside, rightBeside, replaced rfl⟩

/-- A count that is not there leaves the one that was written before. -/
theorem absent_leaves_what_stood_there :
    ¬ ∀ type value name (left right : Fields), Route.schema.HasType type value →
      left.beside name = right.beside name →
      (Route.schema.writeNamed type value name left).1 = .ok () →
      (Route.schema.writeNamed type value name right).1 = .ok () →
        (Route.schema.writeNamed type value name left).2.get? name =
          (Route.schema.writeNamed type value name right).2.get? name := by
  intro claimed
  have left : Route.schema.writeNamed Route.count .absent "count" [("count", .uint 4)] =
      (.ok (), [("count", .uint 4)]) := by
    simp only [writeNamed, write, Route.count, writeAt]
    rfl
  have right : Route.schema.writeNamed Route.count .absent "count" [] = (.ok (), []) := by
    simp only [writeNamed, write, Route.count, writeAt]
    rfl
  have same := claimed Route.count .absent "count" [("count", .uint 4)] [] .absent rfl
    (congrArg Prod.fst left) (congrArg Prod.fst right)
  rw [left, right] at same
  cases same

end Schema

end Marshal
