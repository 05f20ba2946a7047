import Marshal.Proofs.Writing.Names

/-!
# Entries that repeat a name

Entries are merged by putting them one after the other: of a repeated name the first position and the
last node stay. A document whose entries are merged at every level has distinct names at every level.
-/

namespace Marshal

namespace Fields

/-- Puts nodes under their names one after the other. -/
def putAll (fields : Fields) (pairs : List (String × Node)) : Fields :=
  pairs.foldl (fun fields pair => put fields pair.1 pair.2) fields

variable {fields : Fields} {name : String}

theorem of_pairs_snoc (pairs : List (String × Node)) (pair : String × Node) :
    ofPairs (pairs ++ [pair]) = (ofPairs pairs).put pair.1 pair.2 := by
  simp only [ofPairs, List.foldl_append, List.foldl_cons, List.foldl_nil]

theorem names_put_present (present : name ∈ fields.names) (node : Node) :
    (fields.put name node).names = fields.names := by
  induction fields with
  | nil => simp [names] at present
  | cons field rest induction =>
      obtain ⟨known, old⟩ := field
      rw [put]
      split_ifs with same
      · rfl
      · have further : name ∈ names rest := by
          rcases List.mem_cons.mp present with own | further
          · exact absurd own.symm same
          · exact further
        exact congrArg (known :: ·) (induction further)

/-- The names of merged entries stand in the order in which they first come. -/
theorem of_pairs_names (pairs : List (String × Node)) :
    (ofPairs pairs).names = (names pairs).eraseDups := by
  induction pairs using List.reverseRecOn with
  | nil => rfl
  | append_singleton earlier pair induction =>
      have split : names (earlier ++ [pair]) = names earlier ++ [pair.1] := List.map_append
      have known : pair.1 ∈ (ofPairs earlier).names ↔ pair.1 ∈ names earlier := by
        rw [induction, List.mem_eraseDups]
      rw [of_pairs_snoc, split, List.eraseDups_append, ← induction]
      by_cases repeated : pair.1 ∈ names earlier
      · have none : [pair.1].removeAll (names earlier) = [] := by simp [List.removeAll, repeated]
        rw [names_put_present (known.mpr repeated), none]
        exact (List.append_nil _).symm
      · have own : [pair.1].removeAll (names earlier) = [pair.1] := by
          simp [List.removeAll, repeated]
        rw [put_absent (mt known.mp repeated), own]
        exact List.map_append

/-- Under the name of merged entries stands what comes last. -/
theorem of_pairs_get (pairs : List (String × Node)) (name : String) :
    (ofPairs pairs).get? name = get? pairs.reverse name := by
  induction pairs using List.reverseRecOn with
  | nil => rfl
  | append_singleton earlier pair induction =>
      rw [of_pairs_snoc, get_put, List.reverse_append, List.reverse_singleton, List.singleton_append,
        get?, induction]

end Fields

namespace Node

mutual

/-- A document with the entries of every struct merged, and its arrays at their start. -/
def merged : Node → Node
  | .struct pairs => .struct (Fields.ofPairs (mergedEntries pairs))
  | .array items _ => .array (mergedItems items) 0
  | .null => .null
  | .bool value => .bool value
  | .int value => .int value
  | .uint value => .uint value
  | .double value => .double value
  | .text value => .text value

/-- Entries with merged nodes, a repeated name being kept. -/
def mergedEntries : List (String × Node) → List (String × Node)
  | [] => []
  | (name, node) :: rest => (name, merged node) :: mergedEntries rest

def mergedItems : List Node → List Node
  | [] => []
  | node :: rest => merged node :: mergedItems rest

end

theorem merged_entries_map (pairs : List (String × Node)) :
    mergedEntries pairs = pairs.map fun pair => (pair.1, pair.2.merged) := by
  induction pairs with
  | nil => rfl
  | cons pair rest induction => rw [mergedEntries, induction, List.map_cons]

theorem merged_items_map (items : List Node) : mergedItems items = items.map merged := by
  induction items with
  | nil => rfl
  | cons node rest induction => rw [mergedItems, induction, List.map_cons]

end Node

namespace Fields

/-- The fields that come of entries, whose names may repeat. -/
def merged (pairs : List (String × Node)) : Fields := ofPairs (Node.mergedEntries pairs)

@[simp]
theorem merged_nil : merged [] = [] := rfl

@[simp]
theorem merged_struct (pairs : List (String × Node)) :
    (Node.struct pairs).merged = .struct (merged pairs) := rfl

theorem merged_snoc (pairs : List (String × Node)) (name : String) (node : Node) :
    merged (pairs ++ [(name, node)]) = (merged pairs).put name node.merged := by
  rw [merged, merged, Node.merged_entries_map, Node.merged_entries_map, List.map_append]
  exact of_pairs_snoc _ _

theorem merged_names (pairs : List (String × Node)) :
    (merged pairs).names = (names pairs).eraseDups := by
  have same : names (Node.mergedEntries pairs) = names pairs := by
    simp [names, Node.merged_entries_map]
  rw [merged, of_pairs_names, same]

theorem merged_get (pairs : List (String × Node)) (name : String) :
    (merged pairs).get? name = (get? pairs.reverse name).map Node.merged := by
  rw [merged, of_pairs_get, Node.merged_entries_map, ← List.map_reverse]
  generalize pairs.reverse = entries
  induction entries with
  | nil => rfl
  | cons entry rest induction =>
      rw [List.map_cons, get?, get?]
      split_ifs
      · rfl
      · exact induction

end Fields

namespace Node

mutual

/-- Merging leaves no name twice in any struct. -/
theorem merged_distinct (node : Node) : node.merged.namesDistinct = true := by
  cases node with
  | struct pairs => exact merged_entries_distinct pairs [] rfl
  | array items cursor => exact merged_items_distinct items
  | _ => rfl

theorem merged_entries_distinct (pairs : List (String × Node)) (fields : Fields)
    (distinct : fields.Distinct) :
    (fields.putAll (mergedEntries pairs)).Distinct := by
  cases pairs with
  | nil => exact distinct
  | cons pair rest =>
      exact merged_entries_distinct rest _
        (Fields.put_distinct distinct pair.1 (merged_distinct pair.2))

theorem merged_items_distinct (items : List Node) : namesDistinctItems (mergedItems items) = true := by
  cases items with
  | nil => rfl
  | cons node rest =>
      rw [mergedItems, namesDistinctItems, merged_distinct node, merged_items_distinct rest]
      rfl

end

end Node

end Marshal
