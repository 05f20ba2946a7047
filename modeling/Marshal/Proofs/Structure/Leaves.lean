import Marshal.Proofs.Value.Typing

/-!
# The plain members of a structure

With its extensions taken apart, a structure consists of plain members: what each is written as,
where its value lies, and its type. What a declaration has accepted has distinct names throughout,
and every plain member's value is found in every value of the structure.
-/

namespace Marshal

/-- A plain member, seen from the structure it is reached from. -/
structure Leaf where
  name : String
  path : Val.Path
  type : Ty

def Leaf.beneath (path : Val.Path) (leaf : Leaf) : Leaf := { leaf with path := path ++ leaf.path }

namespace Member

mutual

def leaves : Member → List Leaf
  | .field head type => [⟨head.name, head.path, type⟩]
  | .extend head _ members => (leavesAll members).map (Leaf.beneath head.path)

def leavesAll : List Member → List Leaf
  | [] => []
  | member :: rest => leaves member ++ leavesAll rest

end

mutual

theorem leaves_names : ∀ member : Member, member.leaves.map Leaf.name = member.outputs
  | .field _ _ => rfl
  | .extend head _ members => by
      rw [leaves, outputs, ← leaves_all_names members, List.map_map]
      rfl

theorem leaves_all_names : ∀ members : List Member,
    (leavesAll members).map Leaf.name = outputsAll members
  | [] => rfl
  | member :: rest => by
      rw [leavesAll, outputsAll, List.map_append, leaves_names member, leaves_all_names rest]

end

end Member

namespace Declaration

theorem claim_outputs_ok {owner member : String} {written claimed : List (String × String)}
    {outputs : List String} (claims : claimOutputs owner member written outputs = .ok claimed) :
    claimed.map Prod.fst = written.map Prod.fst ++ outputs ∧ outputs.Nodup ∧
      ∀ output ∈ outputs, output ∉ written.map Prod.fst := by
  induction outputs generalizing written with
  | nil =>
      cases claims
      simp
  | cons output rest induction =>
      unfold claimOutputs at claims
      cases known : written.find? fun earlier => earlier.1 = output with
      | some earlier =>
          rw [known] at claims
          cases claims
      | none =>
          rw [known] at claims
          obtain ⟨names, distinct, fresh⟩ := induction claims
          simp only [List.find?_eq_none, decide_eq_true_eq] at known
          simp only [List.map_append, List.map_cons, List.map_nil, List.append_assoc,
            List.singleton_append, List.mem_append, List.mem_cons, List.not_mem_nil, or_false,
            not_or] at names fresh
          refine ⟨names, List.nodup_cons.mpr ⟨fun inside => (fresh output inside).2 rfl, distinct⟩,
            ?_⟩
          intro other inside
          rcases List.mem_cons.mp inside with rfl | inside
          · intro present
            obtain ⟨earlier, member, same⟩ := List.mem_map.mp present
            exact known earlier member same
          · exact (fresh other inside).1

theorem resolve_all_ok {owner : String} {written : List (String × String)}
    {calls : List MemberCall} {members : List Member}
    (resolved : resolveAll owner written calls = .ok members) :
    (Member.outputsAll members).Nodup ∧
      (∀ output ∈ Member.outputsAll members, output ∉ written.map Prod.fst) ∧
        ∀ member ∈ members, ∃ call ∈ calls, call.resolve = .ok member := by
  induction calls generalizing written members with
  | nil =>
      cases resolved
      simp [Member.outputsAll]
  | cons call rest induction =>
      unfold resolveAll at resolved
      split at resolved
      · cases resolved
      · rename_i member own
        split at resolved
        · cases resolved
        · rename_i claimed claims
          split at resolved
          · cases resolved
          · rename_i others further
            cases resolved
            obtain ⟨names, distinct, fresh⟩ := claim_outputs_ok claims
            obtain ⟨othersDistinct, othersFresh, called⟩ := induction further
            rw [names] at othersFresh
            simp only [List.mem_append, not_or] at othersFresh
            refine ⟨?_, ?_, ?_⟩
            · rw [Member.outputsAll]
              refine List.nodup_append.mpr ⟨distinct, othersDistinct, ?_⟩
              rintro output inside other otherInside rfl
              exact (othersFresh output otherInside).2 inside
            · rw [Member.outputsAll]
              intro output inside
              rcases List.mem_append.mp inside with inside | inside
              · exact fresh output inside
              · exact (othersFresh output inside).1
            · intro other inside
              rcases List.mem_cons.mp inside with rfl | inside
              · exact ⟨call, List.mem_cons_self, own⟩
              · obtain ⟨earlier, member, same⟩ := called other inside
                exact ⟨earlier, List.mem_cons_of_mem _ member, same⟩

theorem build_ok {owner : String} {calls : List MemberCall} {members : List Member}
    (built : build owner calls = .ok members) :
    (Member.outputsAll members).Nodup ∧
      ∀ member ∈ members, ∃ call ∈ calls, call.resolve = .ok member := by
  unfold build at built
  split at built
  · cases built
  · obtain ⟨distinct, -, called⟩ := resolve_all_ok built
    exact ⟨distinct, called⟩

end Declaration

namespace Schema

/-- That a line of a structure's declaration reaches into the structure, at the type it says, and
extends by what the extended structure has declared. -/
def CallSound (schema : Schema) (name : String) : MemberCall → Prop
  | .field head type => head.path ≠ [] ∧ schema.Leads (.record name) head.path type
  | .extend head base declared =>
      head.path ≠ [] ∧ schema.Leads (.record name) head.path (.record base) ∧
        declared = (schema.structureInfo base).members

/-- What the program that a schema describes guarantees: fields have distinct names, structures
start from values of their own, and members and enumerators come out of declarations. -/
structure Sound (schema : Schema) : Prop where
  distinct : schema.FieldsDistinct
  initial : ∀ name, schema.HasType (.record name) (schema.structureInfo name).initial
  declared : ∀ name, ∃ owner calls,
    (schema.structureInfo name).members = Declaration.build owner calls ∧
      ∀ call ∈ calls, schema.CallSound name call
  tables : ∀ name, ∃ owner entries,
    (schema.enumerationInfo name).table = EnumTable.declare owner entries

mutual

/-- That a member reaches into the values of a structure. -/
def MemberSound (schema : Schema) (name : String) : Member → Prop
  | .field head type => head.path ≠ [] ∧ schema.Leads (.record name) head.path type
  | .extend head base members =>
      head.path ≠ [] ∧ schema.Leads (.record name) head.path (.record base) ∧
        MembersSound schema base members

def MembersSound (schema : Schema) (name : String) : List Member → Prop
  | [] => True
  | member :: rest => MemberSound schema name member ∧ MembersSound schema name rest

end

/-- The plain members of a structure. -/
def leaves (schema : Schema) (name : String) : List Leaf :=
  match (schema.structureInfo name).members with
  | .ok members => Member.leavesAll members
  | .error _ => []

variable {schema : Schema}

theorem leaves_declared {name : String} {members : List Member}
    (declared : (schema.structureInfo name).members = .ok members) :
    schema.leaves name = Member.leavesAll members := by
  rw [leaves, declared]

theorem members_sound_iff {name : String} {members : List Member} :
    schema.MembersSound name members ↔ ∀ member ∈ members, schema.MemberSound name member := by
  induction members with
  | nil => simp [MembersSound]
  | cons member rest induction => simp [MembersSound, induction]

/-- What holds of declared members because it holds of those of the structures they extend holds of
all of them: an extension is a part of the members that it is declared in, so the induction is on
their size. -/
theorem declared_induction (sound : schema.Sound) (Holds : String → List Member → Prop)
    (step : ∀ name members,
      (∀ head type, .field head type ∈ members →
        head.path ≠ [] ∧ schema.Leads (.record name) head.path type) →
      (∀ head base extended, .extend head base extended ∈ members →
        head.path ≠ [] ∧ schema.Leads (.record name) head.path (.record base) ∧
          (schema.structureInfo base).members = .ok extended ∧ Holds base extended) →
      Holds name members)
    {name : String} {members : List Member}
    (declared : (schema.structureInfo name).members = .ok members) : Holds name members := by
  obtain ⟨owner, calls, built, callsSound⟩ := sound.declared name
  rw [declared] at built
  obtain ⟨-, called⟩ := Declaration.build_ok built.symm
  apply step name members
  · intro head type inside
    obtain ⟨call, callInside, resolved⟩ := called _ inside
    have callSound := callsSound call callInside
    cases call with
    | field head type =>
        cases resolved
        exact callSound
    | extend head base outcome => cases outcome <;> cases resolved
  · intro head base extended inside
    obtain ⟨call, callInside, resolved⟩ := called _ inside
    have callSound := callsSound call callInside
    have smaller := List.sizeOf_lt_of_mem inside
    cases call with
    | field head type => cases resolved
    | extend head base outcome =>
        cases outcome with
        | error fault => cases resolved
        | ok members =>
            cases resolved
            obtain ⟨reaches, leads, same⟩ := callSound
            exact ⟨reaches, leads, same.symm, declared_induction sound Holds step same.symm⟩
termination_by sizeOf members
decreasing_by
  simp only [Member.extend.sizeOf_spec] at smaller
  omega

/-- The members that a structure has declared reach into it, and so do those of its extensions. -/
theorem members_sound (sound : schema.Sound) {name : String} {members : List Member}
    (declared : (schema.structureInfo name).members = .ok members) :
    schema.MembersSound name members := by
  refine declared_induction sound schema.MembersSound (fun name members fields extensions => ?_) declared
  rw [members_sound_iff]
  intro member inside
  cases member with
  | field head type => exact fields head type inside
  | extend head base extended =>
      obtain ⟨reaches, leads, -, further⟩ := extensions head base extended inside
      exact ⟨reaches, leads, further⟩

/-- An extension holds the members that its structure has declared. -/
theorem extension_declared (sound : schema.Sound) {name : String} {members : List Member}
    (declared : (schema.structureInfo name).members = .ok members) {head : MemberHead} {base : String}
    {extended : List Member} (inside : .extend head base extended ∈ members) :
    (schema.structureInfo base).members = .ok extended := by
  refine declared_induction sound (fun _ members => ∀ head base extended,
    .extend head base extended ∈ members → (schema.structureInfo base).members = .ok extended)
    (fun name members fields extensions head base extended inside => ?_) declared head base extended
    inside
  exact (extensions head base extended inside).2.2.1

theorem leads_append {type target : Ty} {base : String} {path rest : Val.Path}
    (leads : schema.Leads type path (.record base))
    (further : schema.Leads (.record base) rest target) :
    schema.Leads type (path ++ rest) target := by
  induction path generalizing type with
  | nil =>
      have same : type.unboxed = .record base := leads
      cases rest with
      | nil => exact same.trans further
      | cons field rest =>
          obtain ⟨name, inner, unboxed, known, more⟩ := further
          exact ⟨name, inner, same.trans unboxed, known, more⟩
  | cons field path induction =>
      obtain ⟨name, inner, unboxed, known, more⟩ := leads
      exact ⟨name, inner, unboxed, known, induction more⟩

mutual

theorem member_leaves_lead {name : String} (member : Member) (sound : schema.MemberSound name member) :
    ∀ leaf ∈ member.leaves, leaf.path ≠ [] ∧ schema.Leads (.record name) leaf.path leaf.type := by
  cases member with
  | field head type =>
      intro leaf inside
      obtain rfl := List.mem_singleton.mp inside
      exact sound
  | extend head base members =>
      intro leaf inside
      obtain ⟨reaches, leads, further⟩ := sound
      obtain ⟨below, belowInside, rfl⟩ := List.mem_map.mp inside
      obtain ⟨-, belowLeads⟩ := leaves_all_lead members further below belowInside
      exact ⟨by simp [Leaf.beneath, reaches], leads_append leads belowLeads⟩

theorem leaves_all_lead {name : String} (members : List Member)
    (sound : schema.MembersSound name members) :
    ∀ leaf ∈ Member.leavesAll members,
      leaf.path ≠ [] ∧ schema.Leads (.record name) leaf.path leaf.type := by
  cases members with
  | nil => simp [Member.leavesAll]
  | cons member rest =>
      intro leaf inside
      rcases List.mem_append.mp inside with inside | inside
      · exact member_leaves_lead member sound.1 leaf inside
      · exact leaves_all_lead rest sound.2 leaf inside

end

/-- Every plain member of a structure reaches into it. -/
theorem leaf_leads (sound : schema.Sound) {name : String} {leaf : Leaf}
    (inside : leaf ∈ schema.leaves name) :
    leaf.path ≠ [] ∧ schema.Leads (.record name) leaf.path leaf.type := by
  unfold leaves at inside
  split at inside
  · rename_i members declared
    exact leaves_all_lead members (members_sound sound declared) leaf inside
  · simp at inside

theorem leaf_below (sound : schema.Sound) {name : String} {leaf : Leaf}
    (inside : leaf ∈ schema.leaves name) {value inner : Val}
    (found : value.get? leaf.path = some inner) : inner.depth < value.depth := by
  obtain ⟨reaches, -⟩ := leaf_leads sound inside
  have below := Val.depth_get found
  have longer := List.length_pos_of_ne_nil reaches
  omega

/-- No two plain members of a structure are written under one name. -/
theorem leaves_distinct (sound : schema.Sound) (name : String) :
    ((schema.leaves name).map Leaf.name).Nodup := by
  unfold leaves
  split
  · rename_i members declared
    obtain ⟨owner, calls, built, -⟩ := sound.declared name
    rw [declared] at built
    rw [Member.leaves_all_names]
    exact (Declaration.build_ok built.symm).1
  · simp

mutual

theorem default_typed (sound : schema.Sound) (type : Ty) :
    schema.HasType type (schema.default type) := by
  cases type with
  | primitive scalar =>
      cases scalar with
      | int kind => exact .int (by cases kind <;> decide)
      | bool => exact .bool _
      | single => exact .single _
      | double => exact .double _
  | string => exact .string _
  | textual name => exact .textual _
  | enumeration name => exact .enumeration _
  | record name => exact sound.initial name
  | option inner => exact .absent
  | sequence kind item => exact .sequence (by simp)
  | map kind key value => exact .map (by simp) (by simp) (by simp) .nil
  | tuple slots => exact .tuple (defaults_typed sound slots)
  | boxed inner => exact .boxed (default_typed sound inner)

theorem defaults_typed (sound : schema.Sound) (slots : List Ty) :
    List.Forall₂ schema.HasType slots (schema.defaults slots) := by
  cases slots with
  | nil => exact .nil
  | cons slot rest => exact .cons (default_typed sound slot) (defaults_typed sound rest)

end

/-- A name is that of a described structure, or it counts as that of one without fields. -/
theorem structure_info_cases (schema : Schema) (name : String) :
    (∃ info ∈ schema.structures, info.name = name ∧ schema.structureInfo name = info) ∨
      schema.structureInfo name = ⟨name, name, [], [], .record [], .ok []⟩ := by
  rw [structureInfo]
  cases found : schema.structures.find? fun info => info.name = name with
  | none => exact .inr rfl
  | some info =>
      have named : info.name = name := by simpa using List.find?_some found
      exact .inl ⟨info, List.mem_of_find?_eq_some found, named, rfl⟩

/-- A schema without enumerations is sound if all structures that it describes are in order. -/
theorem sound_of_structures (plain : schema.enumerations = [])
    (distinct : ∀ info ∈ schema.structures, (info.fields.map Prod.fst).Nodup)
    (initial : ∀ info ∈ schema.structures, schema.HasType (.record info.name) info.initial)
    (declared : ∀ info ∈ schema.structures, ∃ calls,
      info.members = Declaration.build info.name calls ∧
        ∀ call ∈ calls, schema.CallSound info.name call) : schema.Sound where
  distinct name := by
    rcases structure_info_cases schema name with ⟨info, inside, rfl, same⟩ | unknown
    · rw [same]
      exact distinct info inside
    · simp [unknown]
  initial name := by
    rcases structure_info_cases schema name with ⟨info, inside, rfl, same⟩ | unknown
    · rw [same]
      exact initial info inside
    · rw [unknown]
      exact .record (by rw [unknown]; rfl) (by simp [unknown])
  declared name := by
    rcases structure_info_cases schema name with ⟨info, inside, rfl, same⟩ | unknown
    · rw [same]
      exact ⟨info.name, declared info inside⟩
    · rw [unknown]
      exact ⟨name, [], rfl, by simp⟩
  tables name := ⟨name, [], by rw [enumerationInfo, plain]; rfl⟩

end Schema

end Marshal
