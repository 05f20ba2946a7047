import Marshal.Proofs.Graph.Unfolding

/-!
# Descriptions draw what unfolds

A structure enters the stack only where it is not on it, so every further level of structures
leaves fewer that are not on it: the levels that a description starts with cannot be used up.
-/

namespace Marshal.Schema

/-- How many structures are not on a stack. -/
def remaining (schema : Schema) (around : List String) : Nat :=
  (schema.structures.filter fun info => info.name ∉ around).length

variable {schema : Schema} {around : List String} {name : String}

theorem remaining_cons (name : String) : schema.remaining (name :: around) =
    ((schema.structures.filter fun info => info.name ∉ around).filter fun info =>
      info.name ≠ name).length := by
  rw [remaining, List.filter_filter]
  congr 2
  funext info
  simp only [List.mem_cons, not_or, Bool.decide_and, ne_eq]

theorem remaining_le (name : String) :
    schema.remaining (name :: around) ≤ schema.remaining around := by
  rw [remaining_cons]
  exact List.length_filter_le _ _

theorem remaining_lt (known : name ∈ schema.structures.map StructureInfo.name)
    (new : name ∉ around) : schema.remaining (name :: around) < schema.remaining around := by
  obtain ⟨info, inside, rfl⟩ := List.mem_map.mp known
  rw [remaining_cons, remaining, List.length_filter_lt_length_iff_exists]
  exact ⟨info, List.mem_filter.mpr ⟨inside, decide_eq_true new⟩, by simp⟩

theorem unknown_empty (unknown : name ∉ schema.structures.map StructureInfo.name) :
    (schema.structureInfo name).members = .ok [] := by
  rcases structure_info_cases schema name with ⟨info, inside, rfl, -⟩ | same
  · exact absurd (List.mem_map_of_mem inside) unknown
  · rw [same]

section Level

variable {deeper : String → String → Step Graph} {levels : Nat}

/-- That structures are described down to a number of levels. -/
def Deepens (schema : Schema) (levels : Nat) (deeper : String → String → Step Graph) : Prop :=
  ∀ around name path, schema.remaining around < levels →
    schema.Pictures (.type around (.record name)) (schema.Broken (.record name)) around path
      (deeper name path)

mutual

theorem describe_at_pictures (deepens : schema.Deepens levels deeper)
    (room : schema.remaining around < levels) (type : Ty) (path : String) :
    schema.Pictures (.type around type) (schema.Broken type) around path
      (describeAt schema deeper type path) := by
  cases type with
  | primitive scalar => exact label_pictures rfl rfl
  | string => exact label_pictures rfl rfl
  | textual name => exact label_pictures rfl rfl
  | enumeration name =>
      rw [describeAt]
      split
      · rename_i fault failed
        exact fail_pictures fault (.inr ⟨name, fault, .refl, failed⟩)
      · rename_i table built
        refine label_pictures ?_ rfl
        rw [caption, typeCaption, built]
  | record name => exact deepens around name path room
  | option inner =>
      have inside := describe_at_pictures deepens room inner (path ++ "?")
      exact (inside.imp (Broken.direct .content)).within.labelled rfl
  | sequence kind item =>
      have inside := describe_at_pictures deepens room item (path ++ "[]")
      exact (inside.imp (Broken.direct .item)).within.labelled rfl
  | map kind key value =>
      have keyPart : schema.Direct (.map kind key value) key := .key
      have valuePart : schema.Direct (.map kind key value) value := .value
      have keys := (describe_at_pictures deepens room key (path ++ ".key")).imp
        (Broken.direct keyPart)
      have values := fun suffix => (describe_at_pictures deepens room value (path ++ suffix)).imp
        (Broken.direct valuePart)
      apply PicturesAll.labelled rfl
      rw [below, typesBelow]
      cases schema.keyNaming? key with
      | some naming => exact (values ".*").within
      | none => exact keys.within.andThen (values ".value").within
  | tuple slots =>
      apply PicturesAll.labelled rfl
      exact (describe_slots_pictures deepens room slots 0 path).imp fun ⟨slot, inside, broken⟩ =>
        broken.direct (.slot inside)
  | boxed inner =>
      exact ((describe_at_pictures deepens room inner path).imp (Broken.direct .boxed)).boxed

theorem describe_slots_pictures (deepens : schema.Deepens levels deeper)
    (room : schema.remaining around < levels) (slots : List Ty) (position : Nat) (path : String) :
    schema.PicturesAll (slotsBelow around position slots) (∃ slot ∈ slots, schema.Broken slot) around
      path (describeSlots schema deeper position slots path) := by
  cases slots with
  | nil => exact nothing_pictured
  | cons slot rest =>
      have own := describe_at_pictures deepens room slot (path ++ ("." ++ toString position))
      have others := describe_slots_pictures deepens room rest (position + 1) path
      exact (own.imp fun broken => ⟨slot, List.mem_cons_self, broken⟩).within.andThen
        (others.imp fun ⟨other, inside, broken⟩ => ⟨other, List.mem_cons_of_mem _ inside, broken⟩)

end

mutual

theorem describe_member_pictures {around : List String} (deepens : schema.Deepens levels deeper)
    (room : schema.remaining around < levels) (owner : String) (member : Member) :
    schema.PicturesAll (member.shown around) (∃ leaf ∈ member.leaves, schema.Broken leaf.type)
      around owner (describeMember schema deeper owner member) := by
  cases member with
  | field head type =>
      have own := describe_at_pictures deepens room type (owner ++ ("." ++ head.name))
      refine PicturesAll.mapFault (own.imp ?_).within _
      exact fun broken => ⟨_, List.mem_singleton_self _, broken⟩
  | extend head base members =>
      have further : schema.PicturesAll (Member.shownAll (base :: around) members)
          (∃ leaf ∈ Member.leavesAll members, schema.Broken leaf.type) (base :: around) owner
          (describeMembers schema deeper owner members) :=
        describe_members_pictures deepens ((remaining_le base).trans_lt room) owner members
      have moved : (∃ leaf ∈ Member.leavesAll members, schema.Broken leaf.type) →
          ∃ leaf ∈ (Member.extend head base members).leaves, schema.Broken leaf.type :=
        fun ⟨leaf, inside, broken⟩ => ⟨leaf.beneath head.path, List.mem_map_of_mem inside, broken⟩
      have entered := further.entering.imp moved
      intro graph visits
      simp only [describeMember, Member.shown, Graph.isVisiting, visits, List.contains_eq_mem]
      by_cases visiting : base ∈ around
      · rw [if_pos visiting, if_pos (decide_eq_true visiting)]
        exact nothing_pictured graph visits
      · rw [if_neg visiting, if_neg (by simpa using visiting)]
        exact entered graph visits

theorem describe_members_pictures {around : List String} (deepens : schema.Deepens levels deeper)
    (room : schema.remaining around < levels) (owner : String) (members : List Member) :
    schema.PicturesAll (Member.shownAll around members)
      (∃ leaf ∈ Member.leavesAll members, schema.Broken leaf.type) around owner
      (describeMembers schema deeper owner members) := by
  cases members with
  | nil => exact nothing_pictured
  | cons member rest =>
      have own := describe_member_pictures deepens room owner member
      have others := describe_members_pictures deepens room owner rest
      apply PicturesAll.andThen
      · exact own.imp fun ⟨leaf, inside, broken⟩ => ⟨leaf, List.mem_append_left _ inside, broken⟩
      · exact others.imp fun ⟨leaf, inside, broken⟩ =>
          ⟨leaf, List.mem_append_right _ inside, broken⟩

end

theorem describe_declared_pictures (deepens : schema.Deepens levels deeper) (new : name ∉ around)
    (room : schema.remaining around < levels + 1) (path : String) :
    schema.PicturesAll (schema.below (.type around (.record name))) (schema.Broken (.record name))
      (name :: around) path (describeDeclared schema deeper name path) := by
  rw [below, typesBelow, if_neg new, describeDeclared]
  cases declared : (schema.structureInfo name).members with
  | error fault => exact fun graph _ => .inr ⟨fault, graph, rfl, .inl ⟨name, fault, .refl, declared⟩⟩
  | ok members =>
      -- A structure that is not described may come when no levels are left, but has no members.
      by_cases known : name ∈ schema.structures.map StructureInfo.name
      · have less := remaining_lt known new
        have shown := describe_members_pictures deepens
          (show schema.remaining (name :: around) < levels by omega) path members
        refine shown.imp fun ⟨leaf, inside, broken⟩ => broken.direct (.member ?_)
        rw [leaves_declared declared]
        exact inside
      · rw [unknown_empty known] at declared
        cases declared
        exact nothing_pictured

end Level

theorem describe_structure_pictures (schema : Schema) (levels : Nat) :
    schema.Deepens levels (describeStructure schema levels) := by
  induction levels with
  | zero => exact fun _ _ _ room => absurd room (Nat.not_lt_zero _)
  | succ levels induction =>
      intro around name path room graph visits
      simp only [describeStructure, Graph.isVisiting, visits, List.contains_eq_mem]
      by_cases visiting : name ∈ around
      · rw [if_pos (decide_eq_true visiting)]
        have shows : schema.caption (.type around (.record name)) =
            (schema.structureInfo name).label ++ " (recursive)" := if_pos visiting
        exact label_pictures shows (if_pos visiting) graph visits
      · rw [if_neg (by simpa using visiting)]
        have shows : schema.caption (.type around (.record name)) =
            (schema.structureInfo name).label := if_neg visiting
        have declared := describe_declared_pictures induction visiting room path
        exact declared.entering.labelled shows graph visits

theorem remaining_graph_levels : schema.remaining around < schema.graphLevels := by
  have filtered : schema.remaining around ≤ schema.structures.length := List.length_filter_le _ _
  rw [graphLevels]
  omega

/-- Describing a structure draws what unfolds from it. -/
theorem graph_into_pictures (name path : String) :
    schema.Pictures (.type around (.record name)) (schema.Broken (.record name)) around path
      (schema.graphInto name path) :=
  describe_structure_pictures schema _ around name path remaining_graph_levels

theorem describe_pictures (type : Ty) (path : String) :
    schema.Pictures (.type around type) (schema.Broken type) around path
      (schema.describe type path) :=
  describe_at_pictures (describe_structure_pictures schema _) remaining_graph_levels type path

/-- Describing a registry draws what unfolds from its settings. -/
theorem describe_settings_pictures (owner : String) (entries : Entries) :
    schema.PicturesAll (schema.below (.settings entries))
      (∃ entry ∈ entries, schema.Broken entry.2.type) [] owner (entries.describe schema owner) := by
  induction entries with
  | nil => exact nothing_pictured
  | cons entry rest induction =>
      have own : schema.Pictures (.type [] entry.2.type) (schema.Broken entry.2.type) []
          (owner ++ ("." ++ entry.1)) (schema.describe entry.2.type (owner ++ ("." ++ entry.1))) :=
        describe_pictures entry.2.type _
      exact (own.imp fun broken => ⟨entry, List.mem_cons_self, broken⟩).within.andThen
        (induction.imp fun ⟨other, inside, broken⟩ => ⟨other, List.mem_cons_of_mem _ inside, broken⟩)

end Marshal.Schema
