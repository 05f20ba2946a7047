import Marshal.Proofs.RoundTrip.Maps

/-!
# Structures carried by structs

A structure is carried by a struct in which every plain member that does not leave its place empty
has a field of its name. Extensions are written and read at their owner's level, so both go by the
members as they are nested, while what is restored goes by the plain members.
-/

namespace Marshal

/-- What writing nodes under names, one name after the other, makes of a struct. -/
def Fields.leaveAll (nodes : String → Option Node) (names : List String) (fields : Fields) :
    Fields :=
  names.foldl (fun fields name => (Fields.place name).leave (nodes name) fields) fields

theorem Fields.get_leave_all (nodes : String → Option Node) {names : List String} {wanted : String}
    (fields : Fields) : (fields.leaveAll nodes names).get? wanted =
      if wanted ∈ names then (nodes wanted).or (fields.get? wanted) else fields.get? wanted := by
  induction names generalizing fields with
  | nil => rfl
  | cons name rest induction =>
      rw [leaveAll, List.foldl_cons, ← leaveAll, induction, Fields.get_leave]
      by_cases same : name = wanted
      · subst same
        by_cases again : name ∈ rest <;> simp [again, ← Option.or_assoc]
      · simp [same, Ne.symm same]

namespace Schema

variable {schema : Schema}

/-- A list of plain members with distinct names has its nodes by their names. -/
theorem nodes_by_name (holds : Leaf → Option Node → Prop) {leaves : List Leaf}
    (distinct : (leaves.map Leaf.name).Nodup) (each : ∀ leaf ∈ leaves, ∃ node?, holds leaf node?) :
    ∃ nodes : String → Option Node, ∀ leaf ∈ leaves, holds leaf (nodes leaf.name) := by
  induction leaves with
  | nil => exact ⟨fun _ => none, by simp⟩
  | cons first rest induction =>
      rw [List.map_cons, List.nodup_cons] at distinct
      rw [List.forall_mem_cons] at each
      obtain ⟨⟨own, firstHolds⟩, each⟩ := each
      obtain ⟨nodes, restHolds⟩ := induction distinct.2 each
      refine ⟨fun name => if name = first.name then own else nodes name, ?_⟩
      rw [List.forall_mem_cons]
      refine ⟨by simpa using firstHolds, ?_⟩
      intro leaf inside
      have other : leaf.name ≠ first.name :=
        fun same => distinct.1 (same ▸ List.mem_map_of_mem inside)
      simpa [other] using restHolds leaf inside

/-- That a plain member's value is there and has something to do with a node. -/
def Held (related : Ty → Val → Option Node → Prop) (levels : Nat) (value : Val) (leaf : Leaf)
    (node? : Option Node) : Prop :=
  ∃ inner, value.get? leaf.path = some inner ∧ inner.depth ≤ levels ∧ related leaf.type inner node?

theorem Held.imp {weak strong : Ty → Val → Option Node → Prop}
    (implies : ∀ type value node?, strong type value node? → weak type value node?) {levels : Nat}
    {value : Val} {leaf : Leaf} {node? : Option Node} (held : Held strong levels value leaf node?) :
    Held weak levels value leaf node? := by
  obtain ⟨inner, found, shallow, related⟩ := held
  exact ⟨inner, found, shallow, implies _ _ _ related⟩

theorem member_value_found {owner inner : Val} {path : Val.Path}
    (found : owner.get? path = some inner) (fallback : Val) :
    memberValue owner path fallback = inner := by
  rw [memberValue, found, Option.getD_some]

/-- Beneath an extension the plain members are held by the extension's value. -/
theorem held_beneath {related : Ty → Val → Option Node → Prop} {nodes : String → Option Node}
    {levels : Nat} {owner : Val} {path : Val.Path} {leaves : List Leaf}
    (held : ∀ leaf ∈ leaves.map (Leaf.beneath path), Held related levels owner leaf (nodes leaf.name))
    (fallback : Val) :
    ∀ leaf ∈ leaves,
      Held related levels (memberValue owner path fallback) leaf (nodes leaf.name) := by
  intro leaf inside
  obtain ⟨inner, found, shallow, own⟩ := held _ (List.mem_map_of_mem inside)
  have found : owner.get? (path ++ leaf.path) = some inner := found
  rw [Val.get_append, Option.bind_eq_some_iff] at found
  obtain ⟨middle, reached, further⟩ := found
  rw [member_value_found reached]
  exact ⟨inner, further, shallow, own⟩

section Written

variable {nodes : String → Option Node} {levels : Nat}

mutual

theorem member_written {owner : Val} (member : Member)
    (held : ∀ leaf ∈ member.leaves, Held schema.Written levels owner leaf (nodes leaf.name))
    (fields : Fields) :
    schema.writeMember treeSink (schema.writeStructure treeSink levels) owner member fields =
      (.ok (), fields.leaveAll nodes member.outputs) := by
  cases member with
  | field head type =>
      obtain ⟨inner, found, shallow, written⟩ := held _ List.mem_cons_self
      have written := written levels shallow (Fields.place head.name) fields
      have place : treeSink.field head.name = (Fields.place head.name).outlet := rfl
      rw [writeMember, member_value_found found, place, Step.inField, Step.mapFault, written]
      rfl
  | extend head base members =>
      rw [writeMember]
      exact members_written members (held_beneath held _) fields

theorem members_written {owner : Val} (members : List Member)
    (held : ∀ leaf ∈ Member.leavesAll members, Held schema.Written levels owner leaf (nodes leaf.name))
    (fields : Fields) :
    schema.writeMembers treeSink (schema.writeStructure treeSink levels) owner members fields =
      (.ok (), fields.leaveAll nodes (Member.outputsAll members)) := by
  cases members with
  | nil => rfl
  | cons member rest =>
      rw [Member.leavesAll] at held
      rw [List.forall_mem_append] at held
      have own := member_written member held.1 fields
      have others := members_written rest held.2 (fields.leaveAll nodes member.outputs)
      rw [writeMembers, Step.andThen, own]
      dsimp only
      rw [others, Member.outputsAll, Fields.leaveAll, Fields.leaveAll, Fields.leaveAll,
        List.foldl_append]

end

end Written

theorem restores_leaves_append {value target middle result : Val} {left right : List Leaf}
    (first : schema.RestoresLeaves value left target middle)
    (second : schema.RestoresLeaves value right middle result) :
    schema.RestoresLeaves value (left ++ right) target result := by
  induction left generalizing target with
  | nil =>
      cases first
      exact second
  | cons leaf rest induction =>
      rcases first with _ | ⟨written, found, member, members⟩
      exact .cons written found member (induction members)

/-- Restoring the plain members of an extension's value is restoring them beneath the extension. -/
theorem restores_leaves_beneath {value inner target old result : Val} {path : Val.Path}
    (written : value.get? path = some inner) (found : target.get? path = some old)
    {leaves : List Leaf} (members : schema.RestoresLeaves inner leaves old result) :
    schema.RestoresLeaves value (leaves.map (Leaf.beneath path)) target (target.set path result) := by
  induction leaves generalizing target old with
  | nil =>
      cases members
      rw [Val.set_own found]
      exact .nil
  | cons leaf rest induction =>
      rcases members with _ | @⟨_, _, _, _, _, leafInner, leafOld, leafNew, leafWritten, leafFound,
        member, members⟩
      have others := induction (Val.get_set_own found (old.set leaf.path leafNew)) members
      rw [Val.set_set found, ← Val.set_append found] at others
      refine .cons ?_ ?_ member others
      · exact (Val.get_append value path leaf.path).trans (by rw [written]; exact leafWritten)
      · exact (Val.get_append target path leaf.path).trans (by rw [found]; exact leafFound)

/-- That reading makes a value out of any fields that show the nodes of some names, and leaves all
other fields as they are. -/
def Refills (schema : Schema) (nodes : String → Option Node) (names : List String)
    (read : (String → Val → Fields → Reading Val Fields) → Fields → Reading Val Fields)
    (result : Val) : Prop :=
  ∀ bound deeper fields, schema.Deep bound deeper →
    (∀ name ∈ names, fields.get? name = nodes name ∧ (nodes name).elim 0 Node.depth ≤ bound) →
      (read deeper fields).Yields result fun left =>
        ∀ other, other ∉ names → left.get? other = fields.get? other

section Read

variable {nodes : String → Option Node} {levels : Nat}

/-- A plain member is read from the field of its name. -/
theorem field_refills {head : MemberHead} {type : Ty} {target new : Val}
    (reread : schema.Reread type (nodes head.name)
      (memberValue target head.path (schema.default type)) new) :
    schema.Refills nodes [head.name]
      (fun deeper fields => schema.readMember deeper target fields (.field head type))
      (target.set head.path new) := by
  intro bound deeper fields deep shown
  obtain ⟨shows, shallow⟩ := shown head.name List.mem_cons_self
  obtain ⟨outcome, result, left⟩ := reread.field shows deep shallow
  dsimp only
  rw [readMember]
  refine ⟨by rw [outcome]; rfl, by rw [result], fun other outside => left other ?_⟩
  exact List.ne_of_not_mem_cons outside

theorem extend_refills {head : MemberHead} {base : String} {members : List Member} {target new : Val}
    (refills : schema.Refills nodes (Member.outputsAll members)
      (fun deeper fields => schema.readMembers deeper
        (memberValue target head.path (schema.structureInfo base).initial) fields members) new) :
    schema.Refills nodes (Member.outputsAll members)
      (fun deeper fields => schema.readMember deeper target fields (.extend head base members))
      (target.set head.path new) := by
  intro bound deeper fields deep shown
  obtain ⟨outcome, result, left⟩ := refills bound deeper fields deep shown
  dsimp only
  rw [readMember]
  exact ⟨outcome, by rw [result], left⟩

theorem nil_refills (target : Val) :
    schema.Refills nodes [] (fun deeper fields => schema.readMembers deeper target fields [])
      target := by
  intro bound deeper fields deep shown
  exact ⟨rfl, rfl, fun _ _ => rfl⟩

/-- Members are read one after the other, none from a field of the ones before it. -/
theorem cons_refills {member : Member} {rest : List Member} {target middle result : Val}
    (apart : ∀ output ∈ Member.outputsAll rest, output ∉ member.outputs)
    (first : schema.Refills nodes member.outputs
      (fun deeper fields => schema.readMember deeper target fields member) middle)
    (others : schema.Refills nodes (Member.outputsAll rest)
      (fun deeper fields => schema.readMembers deeper middle fields rest) result) :
    schema.Refills nodes (Member.outputsAll (member :: rest))
      (fun deeper fields => schema.readMembers deeper target fields (member :: rest)) result := by
  intro bound deeper fields deep shown
  rw [Member.outputsAll, List.forall_mem_append] at shown
  obtain ⟨outcome, read, left⟩ := first bound deeper fields deep shown.1
  have further := others bound deeper
    (schema.readMember deeper target fields member).source deep fun output inside => by
      rw [left output (apart output inside)]
      exact shown.2 output inside
  dsimp only at outcome read ⊢
  rw [readMembers, outcome, read]
  refine ⟨further.outcome, further.target, ?_⟩
  intro other outside
  rw [Member.outputsAll, List.mem_append, not_or] at outside
  exact (further.source other outside.2).trans (left other outside.1)

mutual

theorem member_reread (sound : schema.Sound) {name : String} {value target : Val}
    (member : Member) (reaches : schema.MemberSound name member)
    (typed : schema.HasType (.record name) value)
    (targetTyped : schema.HasType (.record name) target)
    (held : ∀ leaf ∈ member.leaves, Held schema.Carries levels value leaf (nodes leaf.name))
    (distinct : member.outputs.Nodup) :
    ∃ result, schema.RestoresLeaves value member.leaves target result ∧
      schema.HasType (.record name) result ∧
        schema.Refills nodes member.outputs
          (fun deeper fields => schema.readMember deeper target fields member) result := by
  cases member with
  | field head type =>
      obtain ⟨-, leads⟩ := reaches
      obtain ⟨inner, written, -, carries⟩ := held _ List.mem_cons_self
      obtain ⟨old, found, oldTyped⟩ := leads_get leads targetTyped
      have innerTyped := leads_found leads typed written
      obtain ⟨new, restores, reread⟩ := carries.read old oldTyped
      rw [← member_value_found found (schema.default type)] at reread
      exact ⟨target.set head.path new, .cons written found restores .nil,
        leads_set sound.distinct leads targetTyped (restores_typed sound innerTyped oldTyped restores),
        field_refills reread⟩
  | extend head base members =>
      obtain ⟨-, leads, reaches⟩ := reaches
      obtain ⟨inner, written, innerTyped⟩ := leads_get leads typed
      obtain ⟨old, found, oldTyped⟩ := leads_get leads targetTyped
      have innerHeld := held_beneath held inner
      rw [member_value_found written] at innerHeld
      obtain ⟨new, restores, newTyped, refills⟩ :=
        members_reread sound members reaches innerTyped oldTyped innerHeld distinct
      rw [← member_value_found found (schema.structureInfo base).initial] at refills
      exact ⟨target.set head.path new, restores_leaves_beneath written found restores,
        leads_set sound.distinct leads targetTyped newTyped, extend_refills refills⟩

theorem members_reread (sound : schema.Sound) {name : String} {value target : Val}
    (members : List Member) (reaches : schema.MembersSound name members)
    (typed : schema.HasType (.record name) value)
    (targetTyped : schema.HasType (.record name) target)
    (held : ∀ leaf ∈ Member.leavesAll members, Held schema.Carries levels value leaf (nodes leaf.name))
    (distinct : (Member.outputsAll members).Nodup) :
    ∃ result, schema.RestoresLeaves value (Member.leavesAll members) target result ∧
      schema.HasType (.record name) result ∧
        schema.Refills nodes (Member.outputsAll members)
          (fun deeper fields => schema.readMembers deeper target fields members) result := by
  cases members with
  | nil => exact ⟨target, .nil, targetTyped, nil_refills target⟩
  | cons member rest =>
      rw [Member.leavesAll, List.forall_mem_append] at held
      rw [Member.outputsAll, List.nodup_append] at distinct
      obtain ⟨own, others, apart⟩ := distinct
      obtain ⟨middle, firstRestores, middleTyped, firstRefills⟩ :=
        member_reread sound member reaches.1 typed targetTyped held.1 own
      obtain ⟨result, restRestores, resultTyped, restRefills⟩ :=
        members_reread sound rest reaches.2 typed middleTyped held.2 others
      exact ⟨result, restores_leaves_append firstRestores restRestores, resultTyped,
        cons_refills (fun output inside outside => apart output outside output inside rfl)
          firstRefills restRefills⟩

end

end Read

section Whole

variable {name : String} {members : List Member} {nodes : String → Option Node}

/-- The struct in which each plain member has its node under its name. -/
def memberStruct (nodes : String → Option Node) (members : List Member) : Node :=
  .struct (Fields.leaveAll nodes (Member.outputsAll members) [])

theorem structure_written (declared : (schema.structureInfo name).members = .ok members) {value : Val}
    (held : ∀ levels, value.depth ≤ levels + 1 → ∀ leaf ∈ Member.leavesAll members,
      Held schema.Written levels value leaf (nodes leaf.name)) :
    schema.Written (.record name) value (some (memberStruct nodes members)) := by
  intro levels enough State place state
  have positive := value.depth_positive
  obtain ⟨levels, rfl⟩ := Nat.exists_eq_add_one_of_ne_zero (by omega : levels ≠ 0)
  rw [writeAt, place.struct_eq, writeStructure, declared]
  dsimp only
  rw [members_written members (held levels enough) []]
  rfl

theorem structure_reread (declared : (schema.structureInfo name).members = .ok members)
    {target result : Val}
    (refills : schema.Refills nodes (Member.outputsAll members)
      (fun deeper fields => schema.readMembers deeper target fields members) result) :
    schema.Reread (.record name) (some (memberStruct nodes members)) target result := by
  intro deeper deep State place state shows
  obtain ⟨levels, enough, same⟩ :=
    deep (Fields.leaveAll nodes (Member.outputsAll members) []) le_rfl name target
  obtain ⟨levels, rfl⟩ := Nat.exists_eq_add_one_of_ne_zero
    (by rw [Node.depth] at enough; omega : levels ≠ 0)
  have filled := refills levels (schema.readStructure levels)
    (Fields.leaveAll nodes (Member.outputsAll members) []) (deep_structure levels)
    fun output inside => by
      have shown : (Fields.leaveAll nodes (Member.outputsAll members) []).get? output =
          nodes output := by
        rw [Fields.get_leave_all, if_pos inside]
        exact Option.or_none
      have shallow := shown_depth shown
      rw [Node.depth] at enough
      exact ⟨shown, by omega⟩
  rw [readAt, place.open_struct_eq shows]
  dsimp only [memberStruct, Node.structFields]
  rw [same, readStructure, declared]
  exact ⟨filled.outcome, filled.target, place.struct_keeps _ shows⟩

end Whole

/-- A structure is carried by a struct if each of its plain members is carried by its field. -/
theorem record_carries (sound : schema.Sound) {name : String} {value : Val}
    (typed : schema.HasType (.record name) value)
    (declared : ∃ members, (schema.structureInfo name).members = .ok members)
    (each : ∀ leaf ∈ schema.leaves name, ∀ inner, value.get? leaf.path = some inner →
      ∃ node?, schema.Carries leaf.type inner node?) :
    ∃ node?, schema.Carries (.record name) value node? := by
  obtain ⟨members, declared⟩ := declared
  have leaves := leaves_declared declared
  have distinct := leaves_distinct sound name
  obtain ⟨nodes, held⟩ : ∃ nodes : String → Option Node, ∀ leaf ∈ schema.leaves name,
      ∀ levels, value.depth ≤ levels + 1 → Held schema.Carries levels value leaf (nodes leaf.name) := by
    apply nodes_by_name (fun leaf node? => ∀ levels, value.depth ≤ levels + 1 →
      Held schema.Carries levels value leaf node?) distinct
    intro leaf inside
    obtain ⟨inner, found, -⟩ := leads_get (leaf_leads sound inside).2 typed
    obtain ⟨node?, carries⟩ := each leaf inside inner found
    have below := leaf_below sound inside found
    exact ⟨node?, fun levels enough => ⟨inner, found, by omega, carries⟩⟩
  rw [leaves] at held distinct
  rw [Member.leaves_all_names] at distinct
  have written := structure_written declared fun levels enough leaf inside =>
    (held leaf inside levels enough).imp fun _ _ _ => Carries.always_written
  refine ⟨some (memberStruct nodes members), written, by simp [memberStruct], by simp, ?_⟩
  intro target targetTyped
  obtain ⟨result, restores, -, refills⟩ := members_reread sound members
    (members_sound sound declared) typed targetTyped
    (fun leaf inside => held leaf inside value.depth (Nat.le_succ _)) distinct
  exact ⟨result, .record (leaves ▸ restores), structure_reread declared refills⟩

end Schema

end Marshal
