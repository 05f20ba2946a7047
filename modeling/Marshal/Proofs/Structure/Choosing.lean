import Marshal.Proofs.Structure.Acceptance
import Marshal.Structure.Selection

/-!
# Members chosen by their fields

Members are looked up by the identities of their fields, which are distinct. So the members that are
chosen are those with one of the identities, in declaration order, whatever the order in which they
are asked for and however often.
-/

namespace Marshal

/-- No two members of a declaration have a name or a field in common. -/
theorem Declaration.built_distinct {owner : String} {calls : List MemberCall} {members : List Member}
    (built : Declaration.build owner calls = .ok members) :
    MemberHead.Distinct (members.map Member.head) := by
  have resolved := build_members built
  have heads : members.map Member.head = calls.map MemberCall.head := by
    apply List.ext_getElem?
    intro position
    have own := congrArg (·[position]?) resolved
    simp only [List.getElem?_map] at own ⊢
    cases called : calls[position]? with
    | none =>
        rw [called] at own
        rw [Option.map_eq_none_iff.mp own.symm]
        rfl
    | some call =>
        rw [called] at own
        obtain ⟨member, known, same⟩ := Option.map_eq_some_iff.mp own.symm
        rw [known]
        exact congrArg some (MemberCall.resolve_head same.symm)
  rw [heads]
  exact (built_unambiguous built).members

/-- An entry that no other one has the key of is where something that needs this key holds first. -/
theorem find_idx_alone {Entry Key : Type} {key : Entry → Key} {entries : List Entry}
    (distinct : (entries.map key).Nodup) {index : Nat} {entry : Entry}
    (known : entries[index]? = some entry) {holds : Entry → Bool} (own : holds entry = true)
    (alone : ∀ other, holds other = true → key other = key entry) :
    entries.findIdx? holds = some index := by
  obtain ⟨inside, rfl⟩ := List.getElem?_eq_some_iff.mp known
  rw [List.findIdx?_eq_some_iff_getElem]
  refine ⟨inside, own, ?_⟩
  intro earlier less found
  have short : earlier < (entries.map key).length := by
    rw [List.length_map]
    exact less.trans inside
  have equal : (entries.map key)[earlier]? = (entries.map key)[index]? := by
    rw [List.getElem?_map, List.getElem?_map, List.getElem?_eq_getElem (less.trans inside),
      List.getElem?_eq_getElem inside]
    exact congrArg some (alone _ found)
  exact less.ne ((List.getElem?_inj short distinct).mp equal)

namespace Member

variable {owner : String} {members : List Member} {ids before after : List FieldId} {id : FieldId}

def IsDeclared (members : List Member) (id : FieldId) : Prop := ∃ member ∈ members, member.id = id

/-- The members with some identities, in declaration order. -/
def chosen (members : List Member) (ids : List FieldId) : List Member :=
  members.filter fun member => member.id ∈ ids

theorem mem_chosen {member : Member} :
    member ∈ chosen members ids ↔ member ∈ members ∧ member.id ∈ ids := by
  simp [chosen]

theorem chosen_alone (distinct : (members.map Member.id).Nodup) {member : Member}
    (inside : member ∈ members) : chosen members [member.id] = [member] := by
  induction members with
  | nil => cases inside
  | cons first rest induction =>
      rw [List.map_cons, List.nodup_cons] at distinct
      rcases List.mem_cons.mp inside with rfl | further
      · have others : chosen rest [member.id] = [] := by
          simp only [chosen, List.filter_eq_nil_iff, decide_eq_true_eq, List.mem_singleton]
          intro other otherInside same
          exact distinct.1 (same ▸ List.mem_map_of_mem otherInside)
        rw [chosen, List.filter_cons_of_pos (by simp)]
        exact congrArg (member :: ·) others
      · have different : first.id ≠ member.id := fun same =>
          distinct.1 (same ▸ List.mem_map_of_mem further)
        rw [chosen, List.filter_cons_of_neg (by simpa using different)]
        exact induction distinct.2 further

theorem position_declared (declared : IsDeclared members id) :
    ∃ position, positionOf? members id = some position := by
  obtain ⟨member, inside, same⟩ := declared
  rw [← Option.isSome_iff_exists, positionOf?, List.findIdx?_isSome, List.any_eq_true]
  exact ⟨member, inside, by simpa using same⟩

theorem position_undeclared (undeclared : ¬ IsDeclared members id) :
    positionOf? members id = none := by
  rw [positionOf?, List.findIdx?_eq_none_iff]
  exact fun member inside => decide_eq_false fun same => undeclared ⟨member, inside, same⟩

theorem position_iff (distinct : (members.map Member.id).Nodup) {position : Nat} {member : Member}
    (known : members[position]? = some member) :
    positionOf? members id = some position ↔ member.id = id := by
  rw [positionOf?]
  constructor
  · intro found
    obtain ⟨inside, same, -⟩ := List.findIdx?_eq_some_iff_getElem.mp found
    rw [List.getElem?_eq_getElem inside] at known
    cases known
    simpa using same
  · rintro rfl
    exact find_idx_alone distinct known (by simp) (by simp)

theorem positions_declared (owner : String) (declared : ∀ id ∈ ids, IsDeclared members id) :
    ∃ found, positions owner members ids = .ok found ∧
      ∀ position, position ∈ found ↔ ∃ id ∈ ids, positionOf? members id = some position := by
  induction ids with
  | nil => exact ⟨[], rfl, by simp⟩
  | cons id rest induction =>
      rw [List.forall_mem_cons] at declared
      obtain ⟨own, known⟩ := position_declared declared.1
      obtain ⟨found, others, members⟩ := induction declared.2
      refine ⟨own :: found, by rw [positions, known, others], fun position => ?_⟩
      rw [List.mem_cons, members, List.exists_mem_cons_iff, known, Option.some.injEq, eq_comm]

theorem positions_undeclared (declared : ∀ id ∈ before, IsDeclared members id)
    (undeclared : ¬ IsDeclared members id) :
    positions owner members (before ++ id :: after) =
      .error (.of (.undeclaredField owner id.offset)) := by
  induction before with
  | nil => rw [List.nil_append, positions, position_undeclared undeclared]
  | cons first rest induction =>
      rw [List.forall_mem_cons] at declared
      obtain ⟨own, known⟩ := position_declared declared.1
      rw [List.cons_append, positions, known, induction declared.2]

theorem select_chosen (owner : String) (distinct : (members.map Member.id).Nodup)
    (declared : ∀ id ∈ ids, IsDeclared members id) :
    select owner members ids = .ok (chosen members ids) := by
  obtain ⟨found, positions, mem_found⟩ := positions_declared owner declared
  have same : ∀ entry ∈ members.zipIdx, found.contains entry.2 = decide (entry.1.id ∈ ids) := by
    rintro ⟨member, position⟩ inside
    have known := List.mem_zipIdx_iff_getElem?.mp inside
    rw [Bool.eq_iff_iff, List.contains_iff_mem, mem_found, decide_eq_true_eq]
    simp [position_iff distinct known]
  rw [select, positions]
  dsimp only
  rw [List.filter_congr same, chosen]
  conv_rhs => rw [← List.zipIdx_map_fst 0 members, List.filter_map]
  rfl

theorem select_undeclared (declared : ∀ id ∈ before, IsDeclared members id)
    (undeclared : ¬ IsDeclared members id) :
    select owner members (before ++ id :: after) =
      .error (.of (.undeclaredField owner id.offset)) := by
  rw [select, positions_undeclared declared undeclared]

end Member

namespace Schema

variable {schema : Schema} {name : String} {members : List Member}

theorem members_distinct (sound : schema.Sound)
    (declared : (schema.structureInfo name).members = .ok members) :
    (members.map Member.id).Nodup := by
  obtain ⟨owner, calls, built, -⟩ := sound.declared name
  rw [declared] at built
  have fields := (Declaration.built_distinct built.symm).fields
  rwa [List.map_map] at fields

theorem selected_chosen (sound : schema.Sound)
    (declared : (schema.structureInfo name).members = .ok members) {ids : List FieldId}
    (known : ∀ id ∈ ids, Member.IsDeclared members id) :
    schema.selected name ids = .ok (Member.chosen members ids) := by
  rw [selected, declared]
  exact Member.select_chosen _ (members_distinct sound declared) known

theorem selected_undeclared (declared : (schema.structureInfo name).members = .ok members)
    {before after : List FieldId} {id : FieldId}
    (known : ∀ earlier ∈ before, Member.IsDeclared members earlier)
    (unknown : ¬ Member.IsDeclared members id) :
    schema.selected name (before ++ id :: after) =
      .error (.of (.undeclaredField (schema.structureInfo name).label id.offset)) := by
  rw [selected, declared]
  exact Member.select_undeclared known unknown

end Schema

end Marshal
