import Marshal.Tree.Node
import Mathlib.Tactic.SplitIfs

/-!
# Fields of a struct document

Putting a node under a name is seen under that name alone. An absent name goes to the end.
-/

namespace Marshal.Fields

variable {fields : Fields} {name : String}

theorem get_put (fields : Fields) (name wanted : String) (node : Node) :
    (fields.put name node).get? wanted = if name = wanted then some node else fields.get? wanted := by
  induction fields with
  | nil => rfl
  | cons field rest induction =>
      obtain ⟨present, old⟩ := field
      unfold put
      split_ifs with own same same <;> simp_all [get?]

theorem put_absent (absent : name ∉ fields.names) (node : Node) :
    fields.put name node = fields ++ [(name, node)] := by
  induction fields with
  | nil => rfl
  | cons field rest induction =>
      obtain ⟨present, old⟩ := field
      simp only [names, List.map_cons, List.mem_cons, not_or] at absent
      rw [put, if_neg (Ne.symm absent.1), induction absent.2, List.cons_append]

theorem absent_of_get (missing : fields.get? name = none) : name ∉ fields.names := by
  induction fields with
  | nil => simp [names]
  | cons field rest induction =>
      obtain ⟨present, node⟩ := field
      rw [get?] at missing
      split_ifs at missing with same
      rw [names, List.map_cons, List.mem_cons, not_or]
      exact ⟨Ne.symm same, induction missing⟩

theorem get_of_mem (distinct : fields.names.Nodup) {field : String × Node}
    (inside : field ∈ fields) : fields.get? field.1 = some field.2 := by
  induction fields with
  | nil => simp at inside
  | cons first rest induction =>
      obtain ⟨present, node⟩ := first
      simp only [names, List.map_cons, List.nodup_cons] at distinct induction
      rw [get?]
      rcases List.mem_cons.mp inside with rfl | further
      · rw [if_pos rfl]
      · rw [if_neg, induction distinct.2 further]
        rintro rfl
        exact distinct.1 (List.mem_map_of_mem further)

theorem get_some_iff : (fields.get? name).isSome ↔ name ∈ fields.names := by
  induction fields with
  | nil => simp [get?, names]
  | cons field rest induction =>
      obtain ⟨present, node⟩ := field
      rw [get?, names, List.map_cons, List.mem_cons]
      split_ifs with same
      · simp [same]
      · exact induction.trans (or_iff_right (Ne.symm same)).symm

/-- The order of fields does not matter to finding them. -/
theorem get_perm {left right : Fields} (order : left.Perm right) (distinct : left.names.Nodup)
    (name : String) : left.get? name = right.get? name := by
  induction order with
  | nil => rfl
  | cons field _ induction =>
      rw [names, List.map_cons, List.nodup_cons] at distinct
      rw [get?, get?, induction distinct.2]
  | swap first second rest =>
      simp only [names, List.map_cons, List.nodup_cons, List.mem_cons, not_or] at distinct
      simp only [get?]
      split_ifs with one other
      · exact absurd (one.trans other.symm) distinct.1.1
      · rfl
      · rfl
      · rfl
  | trans order _ first second =>
      exact (first distinct).trans (second ((order.map Prod.fst).nodup distinct))

end Marshal.Fields
