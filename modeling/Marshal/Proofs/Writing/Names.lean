import Marshal.Proofs.Json.RoundTrip
import Marshal.Proofs.Writing.Invariants
import Marshal.Settings.Map

/-!
# Written documents have distinct names

Putting a node under a name keeps the names of a struct distinct, so every struct that is written
has distinct names, at every level.
-/

namespace Marshal

namespace Fields

theorem names_put_subset (fields : Fields) (name : String) (node : Node) :
    ∀ known ∈ (fields.put name node).names, known = name ∨ known ∈ fields.names := by
  intro known inside
  induction fields with
  | nil => exact .inl (List.mem_singleton.mp inside)
  | cons field rest induction =>
      rw [put] at inside
      split_ifs at inside with same
      · exact .inr inside
      · simp only [names, List.map_cons, List.mem_cons] at inside induction ⊢
        tauto

theorem names_put_nodup {fields : Fields} (distinct : fields.names.Nodup) (name : String)
    (node : Node) : (fields.put name node).names.Nodup := by
  induction fields with
  | nil => exact List.nodup_singleton name
  | cons field rest induction =>
      rw [put]
      split_ifs with same
      · exact distinct
      · simp only [names, List.map_cons, List.nodup_cons] at distinct induction ⊢
        refine ⟨fun inside => ?_, induction distinct.2⟩
        rcases names_put_subset rest name node _ inside with own | further
        · exact same own
        · exact distinct.1 further

/-- That the names of a struct, and of all structs in it, are distinct. -/
def Distinct (fields : Fields) : Prop := (Node.struct fields).namesDistinct = true

theorem put_distinct {fields : Fields} (distinct : fields.Distinct) (name : String) {node : Node}
    (inside : node.namesDistinct = true) : (fields.put name node).Distinct := by
  simp only [Distinct, Node.namesDistinct, Bool.and_eq_true, decide_eq_true_eq] at distinct ⊢
  refine ⟨names_put_nodup distinct.1 name node, ?_⟩
  replace distinct := distinct.2
  induction fields with
  | nil => simp [put, Node.namesDistinctFields, inside]
  | cons field rest induction =>
      rw [put]
      simp only [Node.namesDistinctFields, Bool.and_eq_true] at distinct induction
      split_ifs
      · simp [Node.namesDistinctFields, inside, distinct]
      · simp [Node.namesDistinctFields, distinct, induction distinct.2]

end Fields

namespace Slots

/-- That the names of all structs in an array are distinct. -/
def Distinct (slots : Slots) : Prop := Node.namesDistinctItems slots.items = true

theorem push_distinct {slots : Slots} (distinct : slots.Distinct) {node : Node}
    (inside : node.namesDistinct = true) : (slots.push node).Distinct := by
  obtain ⟨items, cursor⟩ := slots
  simp only [Distinct, push] at distinct ⊢
  induction items with
  | nil => simp [Node.namesDistinctItems, inside]
  | cons item rest induction =>
      simp only [Node.namesDistinctItems, Bool.and_eq_true] at distinct
      simp [Node.namesDistinctItems, distinct, induction distinct.2]

end Slots

theorem Scalar.names_distinct (scalar : Scalar) : scalar.toNode.namesDistinct = true := by
  cases scalar <;> rfl

theorem Fields.outlet_distinct (name : String) :
    (Fields.outlet name).Maintains Fields.Distinct Slots.Distinct Fields.Distinct where
  put scalar _ distinct := put_distinct distinct name scalar.names_distinct
  leaveEmpty _ distinct := distinct
  withStruct body _ distinct := put_distinct distinct name (body [] rfl)
  withArray body _ distinct := put_distinct distinct name (body .empty rfl)

theorem Slots.outlet_distinct :
    Slots.outlet.Maintains Fields.Distinct Slots.Distinct Slots.Distinct where
  put scalar _ distinct := push_distinct distinct scalar.names_distinct
  leaveEmpty _ distinct := push_distinct distinct rfl
  withStruct body _ distinct := push_distinct distinct (body [] rfl)
  withArray body _ distinct := push_distinct distinct (body .empty rfl)

theorem tree_sink_distinct : treeSink.Maintains Fields.Distinct Slots.Distinct where
  field := Fields.outlet_distinct
  next := Slots.outlet_distinct

/-- Whatever is written into a document, and whether or not that succeeds, its names stay distinct. -/
theorem Schema.write_named_distinct (schema : Schema) (type : Ty) (value : Val) (name : String) :
    (schema.writeNamed type value name).Maintains Fields.Distinct :=
  schema.write_maintains tree_sink_distinct type value (Fields.outlet_distinct name)

theorem Entries.write_distinct (schema : Schema) (entries : Entries) :
    (entries.write schema).Maintains Fields.Distinct := by
  induction entries with
  | nil => exact Step.done_maintains
  | cons head rest induction =>
      obtain ⟨name, entry⟩ := head
      have own : (schema.writeAny entry.type entry.value name).Maintains Fields.Distinct := by
        rw [Schema.writeAny]
        split
        · exact Step.fail_maintains _
        · exact schema.write_named_distinct _ _ _
      exact (own.mapFault _).andThen induction

end Marshal
