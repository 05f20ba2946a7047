import Marshal.Proofs.Structure.Choosing
import Marshal.Proofs.Structure.Documents

/-!
# Writing chosen members is projecting the document

The members of a structure write names of their own, each without regard to the others. So what some
of them write is the part of the whole document under their names.
-/

namespace Marshal

/-- A part of a list without repetitions is what the list has in common with it. -/
theorem filter_part {part all : List String} (within : part.Sublist all) (distinct : all.Nodup) :
    (all.filter fun name => name ∈ part) = part := by
  induction within with
  | slnil => rfl
  | cons first within induction =>
      rw [List.nodup_cons] at distinct
      have outside := fun inside => distinct.1 (within.subset inside)
      rw [List.filter_cons_of_neg (by simpa using outside)]
      exact induction distinct.2
  | cons_cons first within induction =>
      rw [List.nodup_cons] at distinct
      rw [List.filter_cons_of_pos (by simp)]
      refine congrArg (first :: ·) ((List.filter_congr fun name inside => ?_).trans
        (induction distinct.2))
      have different : name ≠ first := fun same => distinct.1 (same ▸ inside)
      simp [different]

namespace Member

variable {members part : List Member}

theorem outputs_all_within (within : part.Sublist members) :
    (outputsAll part).Sublist (outputsAll members) := by
  induction within with
  | slnil => exact .slnil
  | cons first within induction => exact induction.trans (List.sublist_append_right _ _)
  | cons_cons first within induction => exact induction.append_left _

theorem leaves_all_within (within : part ⊆ members) : leavesAll part ⊆ leavesAll members := by
  induction part with
  | nil => exact List.nil_subset _
  | cons first rest induction =>
      rw [List.cons_subset] at within
      exact List.append_subset.mpr ⟨leaves_among within.1, induction within.2⟩

end Member

/-- What nodes leave under some names is the part under these of what they leave under all. -/
theorem Fields.leave_all_within (nodes : String → Option Node) {names part : List String}
    (within : part.Sublist names) (distinct : names.Nodup) :
    (Fields.leaveAll nodes names []).filter (fun field => field.1 ∈ part) =
      Fields.leaveAll nodes part [] := by
  have fresh (names : List String) : ∀ name ∈ names, name ∉ Fields.names [] := by simp [Fields.names]
  rw [leave_all_absent nodes distinct (fresh names),
    leave_all_absent nodes (within.nodup distinct) (fresh part), List.nil_append, List.nil_append]
  conv_rhs => rw [← filter_part within distinct]
  rw [List.filterMap_filter, List.filter_filterMap]
  congr 1
  funext name
  by_cases inside : name ∈ part
  · cases nodes name <;> simp [inside]
  · cases nodes name <;> simp [inside]

namespace Schema

variable {schema : Schema} {name : String} {members : List Member}

/-- A structure that can be written has a node for each of its plain members, if it is not left out,
and its document consists of these. -/
theorem object_nodes (sound : schema.Sound)
    (declared : (schema.structureInfo name).members = .ok members) {value : Val}
    (typed : schema.HasType (.record name) value) {document : Fields}
    (ok : schema.writeObject treeSink name value [] = (.ok (), document)) :
    ∃ nodes : String → Option Node,
      (∀ levels, value.depth ≤ levels + 1 → ∀ leaf ∈ Member.leavesAll members,
        Held schema.Written levels value leaf (nodes leaf.name)) ∧
      document = Fields.leaveAll nodes (Member.outputsAll members) [] := by
  obtain ⟨nodes, held⟩ := leaf_nodes sound typed fun leaf inside inner found =>
    written_as sound leaf.type inner (leads_found (leaf_leads sound inside).2 typed found)
      (leaves_write sound declared (congrArg Prod.fst ok) leaf inside inner found)
  rw [leaves_declared declared] at held
  have written (levels : Nat) (enough : value.depth ≤ levels + 1) :
      ∀ leaf ∈ Member.leavesAll members, Held schema.Written levels value leaf (nodes leaf.name) := by
    intro leaf inside
    obtain ⟨inner, found, below, written⟩ := held leaf inside
    exact ⟨inner, found, by omega, written.written⟩
  have positive := value.depth_positive
  obtain ⟨levels, enough⟩ := Nat.exists_eq_add_one_of_ne_zero (by omega : value.depth ≠ 0)
  rw [writeObject, enough, writeStructure, declared] at ok
  dsimp only at ok
  rw [members_written members (written levels enough.le)] at ok
  exact ⟨nodes, written, (congrArg Prod.snd ok).symm⟩

/-- What some members of a structure write is what all of them write under these members' names, in
the order in which it stands there; in which order they are asked for, and how often, does not matter.
The first field that is not declared is refused, before anything is written. -/
theorem chosen_members_written (sound : schema.Sound)
    (declared : (schema.structureInfo name).members = .ok members) (value : Val) (ids : List FieldId) :
    (∀ document, schema.HasType (.record name) value →
      schema.writeObject treeSink name value [] = (.ok (), document) →
      (∀ id ∈ ids, Member.IsDeclared members id) →
        schema.writePartial treeSink name value ids [] = (.ok (), document.filter fun field =>
          field.1 ∈ Member.outputsAll (Member.chosen members ids))) ∧
    ∀ before id after, ids = before ++ id :: after →
      (∀ earlier ∈ before, Member.IsDeclared members earlier) → ¬ Member.IsDeclared members id →
        ∃ fault, fault.kind = .lookup ∧
          fault = .of (.undeclaredField (schema.structureInfo name).label id.offset) ∧
          ∀ {Structs Arrays : Type} (sink : Sink Structs Arrays) (state : Structs),
            schema.writePartial sink name value ids state = (.error fault, state) := by
  constructor
  · intro document typed ok known
    obtain ⟨nodes, written, rfl⟩ := object_nodes sound declared typed ok
    have within : (Member.chosen members ids).Sublist members := List.filter_sublist
    have chosen := members_written (Member.chosen members ids) (fun leaf inside =>
      written value.depth (Nat.le_succ _) leaf (Member.leaves_all_within within.subset inside)) []
    have distinct := leaves_distinct sound name
    rw [leaves_declared declared, Member.leaves_all_names] at distinct
    rw [Fields.leave_all_within nodes (Member.outputs_all_within within) distinct, writePartial,
      selected_chosen sound declared known]
    exact chosen
  · rintro before id after rfl known unknown
    refine ⟨_, rfl, rfl, fun sink state => ?_⟩
    rw [writePartial, selected_undeclared declared known unknown]
    rfl

/-- A visit is asked for twice, and a field that is not declared at the place and of the type of one
that is. -/
theorem chosen_members_written_trip :
    let trip := Journey.tripValue "Delphi" .absent 3
    let document : Fields := [("name", .text "Delphi"), ("days", .uint 3)]
    let visit : FieldId := ⟨0, "visit", .record "Visit"⟩
    let days : FieldId := ⟨32, "days", Journey.number⟩
    let weeks : FieldId := ⟨32, "weeks", Journey.number⟩
    Journey.schema.Sound ∧
      (Journey.schema.structureInfo "Trip").members = .ok Journey.tripMembers ∧
      Journey.schema.HasType (.record "Trip") trip ∧
      Journey.schema.writeObject treeSink "Trip" trip [] = (.ok (), document) ∧
      (∀ id ∈ [visit, visit], Member.IsDeclared Journey.tripMembers id) ∧
      Journey.schema.writePartial treeSink "Trip" trip [visit, visit] [] =
        (.ok (), [("name", .text "Delphi")]) ∧
      Member.IsDeclared Journey.tripMembers days ∧ ¬ Member.IsDeclared Journey.tripMembers weeks ∧
      Journey.schema.writePartial treeSink "Trip" trip [days, weeks, visit] document =
        (.error (.of (.undeclaredField "Trip" 32)), document) := by
  intro trip document visit days weeks
  have declared : (Journey.schema.structureInfo "Trip").members = .ok Journey.tripMembers := rfl
  have typed : Journey.schema.HasType (.record "Trip") trip :=
    Journey.trip_typed "Delphi" .absent (by decide)
  have known : ∀ id ∈ [visit, visit], Member.IsDeclared Journey.tripMembers id := by
    simp only [List.forall_mem_cons]
    exact ⟨⟨_, List.mem_cons_self, rfl⟩, ⟨_, List.mem_cons_self, rfl⟩, nofun⟩
  have last : Member.IsDeclared Journey.tripMembers days :=
    ⟨_, List.mem_cons_of_mem _ List.mem_cons_self, rfl⟩
  have unknown : ¬ Member.IsDeclared Journey.tripMembers weeks := by
    rintro ⟨member, inside, same⟩
    have fields : Journey.tripMembers.map (fun member => member.id.field) = ["visit", "days"] := rfl
    have named := List.mem_map_of_mem (f := fun member : Member => member.id.field) inside
    rw [fields, same] at named
    revert named
    decide
  obtain ⟨written, -⟩ :=
    chosen_members_written Journey.sound declared trip [visit, visit]
  obtain ⟨-, refused⟩ :=
    chosen_members_written Journey.sound declared trip [days, weeks, visit]
  obtain ⟨fault, -, same, left⟩ :=
    refused [days] weeks [visit] rfl (by simpa using last) unknown
  exact ⟨Journey.sound, declared, typed, Journey.trip_written, known,
    written document typed Journey.trip_written known, last, unknown, same ▸ left treeSink document⟩

end Schema

end Marshal
