import Marshal.Proofs.Reading.Again
import Marshal.Proofs.RoundTrip.Structures
import Marshal.Proofs.Structure.Acceptance
import Marshal.Proofs.Writing.Steps

/-!
# Extending a structure is having its members

A structure that extends others is written and read like the structure that has the plain members of
all of them itself, each at its place. Writing agrees in every step. Reading agrees as well, because
what reading overwrites leaves the extended structures where they are.
-/

namespace Marshal

namespace Leaf

/-- The identities of plain members are given by their names, which are distinct. -/
def head (ids : String → FieldId) (leaf : Leaf) : MemberHead := ⟨leaf.name, ids leaf.name, leaf.path⟩

def member (ids : String → FieldId) (leaf : Leaf) : Member := .field (leaf.head ids) leaf.type

/-- The line of a declaration that declares a plain member. -/
def call (ids : String → FieldId) (leaf : Leaf) : MemberCall := .field (leaf.head ids) leaf.type

end Leaf

namespace Declaration

/-- With all extensions taken apart, what has been declared can still be declared. -/
theorem inlined_built {members : List Member} (outputs : (Member.outputsAll members).Nodup)
    {ids : String → FieldId} (distinct : ((Member.outputsAll members).map ids).Nodup)
    (owner : String) :
    build owner ((Member.leavesAll members).map (Leaf.call ids)) =
      .ok ((Member.leavesAll members).map (Leaf.member ids)) := by
  rw [← Member.leaves_all_names] at outputs distinct
  have unambiguous : Unambiguous ((Member.leavesAll members).map (Leaf.call ids)) := by
    refine ⟨⟨?_, ?_⟩, ?_, ?_⟩
    · simpa [Function.comp_def, Leaf.call, MemberCall.head, Leaf.head] using outputs
    · simpa [Function.comp_def, Leaf.call, MemberCall.head, Leaf.head] using distinct
    · simp [Leaf.call]
    · rw [List.flatMap_map]
      exact List.map_eq_flatMap ▸ outputs
  obtain ⟨plain, built⟩ := (built_iff_unambiguous owner _).mpr unambiguous
  have resolved := build_members built
  have own : ((Member.leavesAll members).map (Leaf.call ids)).map MemberCall.resolve =
      ((Member.leavesAll members).map (Leaf.member ids)).map .ok := by
    rw [List.map_map, List.map_map]
    rfl
  rw [own] at resolved
  rw [built, List.map_injective_iff.mpr (fun _ _ => Except.ok.inj) resolved]

end Declaration

namespace Reading

variable {Target State : Type} {first : Reading Target State}
  {second third : Target → State → Reading Target State}

/-- Goes on with another reading unless one has failed. -/
def further (first : Reading Target State) (second : Target → State → Reading Target State) :
    Reading Target State :=
  match first.outcome with
  | .ok () => (second first.target first.source).after first.log
  | .error _ => first

theorem after_further (log : Log) :
    (first.after log).further second = (first.further second).after log := by
  rcases first with ⟨_ | _, target, source, earlier⟩
  · rfl
  · simp only [further, after, List.append_assoc]

theorem further_done (first : Reading Target State) :
    first.further (fun target source => ⟨.ok (), target, source, []⟩) = first := by
  unfold further
  rcases first with ⟨_ | _, target, source, log⟩
  · rfl
  · simp only [after, List.append_nil]

theorem further_assoc :
    (first.further second).further third =
      first.further fun target source => (second target source).further third := by
  rcases first with ⟨_ | _, target, source, log⟩
  · rfl
  · exact after_further log

/-- What comes after a reading is reached only if that has succeeded. -/
theorem further_congr
    (same : first.outcome = .ok () →
      second first.target first.source = third first.target first.source) :
    first.further second = first.further third := by
  unfold further
  split
  · rename_i ok
    rw [same ok]
  · rfl

/-- A reading of what a path leads to, as one of the whole. -/
def placed (reading : Reading Val State) (owner : Val) (path : Val.Path) : Reading Val State :=
  { reading with target := owner.set path reading.target }

end Reading

namespace Schema

variable {schema : Schema} {ids : String → FieldId}

/-- That the structures inside of a structure's value are all there. -/
def Whole (schema : Schema) (name : String) (value : Val) : Prop :=
  ∀ path base, schema.Leads (.record name) path (.record base) → ∃ inner, value.get? path = some inner

theorem typed_whole {name : String} {value : Val} (typed : schema.HasType (.record name) value) :
    schema.Whole name value := by
  intro path base leads
  obtain ⟨inner, found, -⟩ := leads_get leads typed
  exact ⟨inner, found⟩

theorem Whole.inner {name base : String} {value inner : Val} {path : Val.Path}
    (whole : schema.Whole name value) (leads : schema.Leads (.record name) path (.record base))
    (found : value.get? path = some inner) : schema.Whole base inner := by
  intro rest other further
  obtain ⟨last, reached⟩ := whole (path ++ rest) other (leads_append leads further)
  rw [Val.get_append, found] at reached
  exact ⟨last, reached⟩

/-- Where a structure lies, nothing around it is replaced. -/
theorem found_overwritten (distinct : schema.FieldsDistinct) {type : Ty} {path : Val.Path}
    {base : String} (leads : schema.Leads type path (.record base)) {trail : Trail}
    (replaces : schema.Replaces type trail) {value inner : Val} (found : value.get? path = some inner)
    (part : Val) : ∃ inner, (value.overwrite trail part).get? path = some inner := by
  obtain ⟨target, reaches, replaced⟩ := replaces
  induction path generalizing type trail value with
  | nil => exact ⟨_, rfl⟩
  | cons name path induction =>
      obtain ⟨record, member, unboxed, known, further⟩ := leads
      obtain ⟨fields, middle, rfl, present, below⟩ := Val.get_cons.mp found
      cases trail with
      | nil =>
          have same : type.unboxed = target.unboxed := reaches
          rw [Ty.isReplaced, ← same, unboxed] at replaced
          cases replaced
      | cons segment trail =>
          cases segment with
          | index position =>
              obtain ⟨types, slot, tuple, -⟩ := reaches
              rw [unboxed] at tuple
              cases tuple
          | field other =>
              obtain ⟨owner, second, again, knownToo, reachesOn⟩ := reaches
              rw [unboxed] at again
              cases again
              by_cases same : other = name
              · subst same
                obtain rfl := field_type distinct known knownToo
                obtain ⟨inner, reached⟩ := induction further below reachesOn
                refine ⟨inner, Val.get_cons.mpr ⟨_, _, ?_, Val.lookup_update_own present _, reached⟩⟩
                simp only [Val.overwrite, Val.part?, present, Val.replacePart]
              · rw [Val.overwrite, Val.part?]
                cases Val.lookup fields other with
                | none => exact ⟨inner, found⟩
                | some old =>
                    refine ⟨inner, Val.get_cons.mpr ⟨_, middle, rfl, ?_, below⟩⟩
                    rw [Val.lookup_update_other same, present]

theorem Whole.overwritten (distinct : schema.FieldsDistinct) {name : String}
    {parts : List (Trail × Val)} (replaces : ∀ part ∈ parts, schema.Replaces (.record name) part.1)
    {value : Val} (whole : schema.Whole name value) :
    schema.Whole name (value.overwriteAll parts) := by
  induction parts generalizing value with
  | nil => exact whole
  | cons part parts induction =>
      rw [List.forall_mem_cons] at replaces
      apply induction replaces.2
      intro path base leads
      obtain ⟨inner, found⟩ := whole path base leads
      exact found_overwritten distinct leads replaces.1 found part.2

theorem member_value_beneath {owner inner : Val} {path : Val.Path}
    (found : owner.get? path = some inner) (rest : Val.Path) (fallback : Val) :
    memberValue owner (path ++ rest) fallback = memberValue inner rest fallback := by
  rw [memberValue, memberValue, Val.get_append, found, Option.bind_some]

section Writing

variable {Structs Arrays : Type} (sink : Sink Structs Arrays) (deeper : String → Val → Step Structs)

theorem write_members_append (owner : Val) (left right : List Member) :
    schema.writeMembers sink deeper owner (left ++ right) =
      (schema.writeMembers sink deeper owner left).andThen
        (schema.writeMembers sink deeper owner right) := by
  induction left with
  | nil => rfl
  | cons member rest induction =>
      rw [List.cons_append, writeMembers, writeMembers, induction, Step.and_then_assoc]

theorem write_leaves_beneath {owner inner : Val} {path : Val.Path}
    (found : owner.get? path = some inner) (leaves : List Leaf) :
    schema.writeMembers sink deeper owner ((leaves.map (Leaf.beneath path)).map (Leaf.member ids)) =
      schema.writeMembers sink deeper inner (leaves.map (Leaf.member ids)) := by
  induction leaves with
  | nil => rfl
  | cons leaf rest induction =>
      have own : schema.writeMember sink deeper owner ((leaf.beneath path).member ids) =
          schema.writeMember sink deeper inner (leaf.member ids) := by
        simp only [Leaf.member, Leaf.head, Leaf.beneath, writeMember]
        rw [member_value_beneath found]
      simp only [List.map_cons, writeMembers, own]
      rw [induction]

mutual

/-- A member is written as its plain members are, one after the other. -/
theorem write_member_inlined {name : String} {owner : Val} (member : Member)
    (reaches : schema.MemberSound name member) (whole : schema.Whole name owner) :
    schema.writeMembers sink deeper owner (member.leaves.map (Leaf.member ids)) =
      schema.writeMember sink deeper owner member := by
  cases member with
  | field head type =>
      rw [Member.leaves, List.map_singleton, writeMembers, writeMembers, Step.and_then_done]
      simp only [Leaf.member, Leaf.head, writeMember]
  | extend head base members =>
      obtain ⟨-, leads, further⟩ := reaches
      obtain ⟨inner, found⟩ := whole head.path base leads
      rw [Member.leaves, write_leaves_beneath sink deeper found, writeMember,
        member_value_found found]
      exact write_members_inlined members further (whole.inner leads found)

theorem write_members_inlined {name : String} {owner : Val} (members : List Member)
    (reach : schema.MembersSound name members) (whole : schema.Whole name owner) :
    schema.writeMembers sink deeper owner ((Member.leavesAll members).map (Leaf.member ids)) =
      schema.writeMembers sink deeper owner members := by
  cases members with
  | nil => rfl
  | cons member rest =>
      rw [Member.leavesAll, List.map_append, write_members_append, writeMembers,
        write_member_inlined member reach.1 whole, write_members_inlined rest reach.2 whole]

end

end Writing

section Read

variable (deeper : String → Val → Fields → Reading Val Fields)

theorem read_members_cons (owner : Val) (fields : Fields) (member : Member) (rest : List Member) :
    schema.readMembers deeper owner fields (member :: rest) =
      (schema.readMember deeper owner fields member).further fun owner fields =>
        schema.readMembers deeper owner fields rest := by
  rw [readMembers]
  generalize schema.readMember deeper owner fields member = first
  rcases first with ⟨_ | _, target, source, log⟩ <;> rfl

theorem read_members_append (owner : Val) (fields : Fields) (left right : List Member) :
    schema.readMembers deeper owner fields (left ++ right) =
      (schema.readMembers deeper owner fields left).further fun owner fields =>
        schema.readMembers deeper owner fields right := by
  induction left generalizing owner fields with
  | nil => rfl
  | cons member rest induction =>
      rw [List.cons_append, read_members_cons, read_members_cons, Reading.further_assoc]
      simp only [induction]

theorem read_leaf_beneath {owner inner : Val} {path : Val.Path}
    (found : owner.get? path = some inner) (fields : Fields) (leaf : Leaf) :
    schema.readMember deeper owner fields ((leaf.beneath path).member ids) =
      (schema.readMember deeper inner fields (leaf.member ids)).placed owner path := by
  simp only [Leaf.member, Leaf.head, Leaf.beneath, readMember, Reading.placed]
  rw [member_value_beneath found, Val.set_append found]

/-- What is read beneath an extension is read into the extended structure. -/
theorem read_leaves_beneath {owner inner : Val} {path : Val.Path}
    (found : owner.get? path = some inner) (fields : Fields) (leaves : List Leaf) :
    schema.readMembers deeper owner fields
        ((leaves.map (Leaf.beneath path)).map (Leaf.member ids)) =
      (schema.readMembers deeper inner fields (leaves.map (Leaf.member ids))).placed owner path := by
  induction leaves generalizing owner inner fields with
  | nil =>
      simp only [List.map_nil, readMembers, Reading.placed]
      rw [Val.set_own found]
  | cons leaf rest induction =>
      simp only [List.map_cons, read_members_cons]
      rw [read_leaf_beneath deeper found]
      rcases schema.readMember deeper inner fields (leaf.member ids) with ⟨_ | _, target, source, log⟩
      · rfl
      · have others := induction (Val.get_set_own found target) source
        simp only [Reading.further, Reading.placed, Reading.after] at others ⊢
        rw [others]
        simp only [Val.set_set found]

mutual

/-- A member is read as its plain members are, one after the other. -/
theorem read_member_inlined (sound : schema.Sound)
    (structures : ∀ name fields,
      schema.Overwrites (.record name) fun target => deeper name target fields)
    {name : String} {owner : Val} (member : Member) (reaches : schema.MemberSound name member)
    (shaped : schema.Shaped (.record name) owner) (whole : schema.Whole name owner)
    (fields : Fields) :
    schema.readMembers deeper owner fields (member.leaves.map (Leaf.member ids)) =
      schema.readMember deeper owner fields member := by
  cases member with
  | field head type =>
      rw [Member.leaves, List.map_singleton, read_members_cons]
      simp only [readMembers]
      rw [Reading.further_done]
      simp only [Leaf.member, Leaf.head, readMember]
  | extend head base members =>
      obtain ⟨-, leads, further⟩ := reaches
      obtain ⟨inner, found⟩ := whole head.path base leads
      rw [Member.leaves, read_leaves_beneath deeper found,
        read_members_inlined sound structures members further (shaped_found leads shaped found)
          (whole.inner leads found), readMember, member_value_found found]
      rfl

/-- Each member finds the structures that later ones extend as it leaves them. -/
theorem read_members_inlined (sound : schema.Sound)
    (structures : ∀ name fields,
      schema.Overwrites (.record name) fun target => deeper name target fields)
    {name : String} {owner : Val} (members : List Member) (reach : schema.MembersSound name members)
    (shaped : schema.Shaped (.record name) owner) (whole : schema.Whole name owner)
    (fields : Fields) :
    schema.readMembers deeper owner fields ((Member.leavesAll members).map (Leaf.member ids)) =
      schema.readMembers deeper owner fields members := by
  cases members with
  | nil => rfl
  | cons member rest =>
      rw [Member.leavesAll, List.map_append, read_members_append, read_members_cons,
        read_member_inlined sound structures member reach.1 shaped whole]
      apply Reading.further_congr
      intro ok
      -- What has been read into is a structure of the same shape, with all that is extended in it.
      rcases read_member_overwrites deeper sound structures member reach.1 fields with
        ⟨fault, failed⟩ | ⟨parts, source, log, replaces, read⟩
      · rw [failed owner shaped] at ok
        cases ok
      · have own : schema.readMember deeper owner fields member = _ := read owner shaped
        rw [own]
        exact read_members_inlined sound structures rest reach.2
          (shaped_overwrite_all sound.distinct replaces shaped)
          (whole.overwritten sound.distinct replaces) source

end

end Read

/-- A structure whose extensions have all been replaced by the members they stand for is declared
like the structure itself, is written to the same documents, with the same faults where writing
fails, and reads the same from every document. -/
theorem extending_is_inlining (sound : schema.Sound) {name : String} {members : List Member}
    (declared : (schema.structureInfo name).members = .ok members) {ids : String → FieldId}
    (distinct : ((Member.outputsAll members).map ids).Nodup) :
    ∃ plain,
      (∀ owner,
        Declaration.build owner ((Member.leavesAll members).map (Leaf.call ids)) = .ok plain) ∧
      ∀ other, (schema.structureInfo other).members = .ok plain →
        (∀ {Structs Arrays : Type} (sink : Sink Structs Arrays) value,
          schema.HasType (.record name) value →
            schema.writeObject sink other value = schema.writeObject sink name value) ∧
        ∀ target, schema.HasType (.record name) target → ∀ fields,
          schema.readObject other target fields = schema.readObject name target fields := by
  have reach := members_sound sound declared
  obtain ⟨owner, calls, built, -⟩ := sound.declared name
  rw [declared] at built
  refine ⟨_, Declaration.inlined_built (Declaration.build_ok built.symm).1 distinct, ?_⟩
  intro other inlined
  constructor
  · intro Structs Arrays sink value typed
    have positive := value.depth_positive
    obtain ⟨levels, enough⟩ := Nat.exists_eq_add_one_of_ne_zero (by omega : value.depth ≠ 0)
    rw [writeObject, writeObject, enough, writeStructure, writeStructure, inlined, declared]
    exact write_members_inlined sink _ members reach (typed_whole typed)
  · intro target typed fields
    rw [readObject, readObject, Node.depth, readStructure, readStructure, inlined, declared]
    exact read_members_inlined _ sound
      (fun name fields => read_structure_overwrites sound _ name fields) members reach
      (has_type_shaped typed) (typed_whole typed) fields

end Schema

namespace Journey

/-- How long something takes, in days or in minutes. -/
def number : Ty := .primitive (.int .u8)

def trip : List MemberCall :=
  [.extend (head "visit" 0 (.record "Visit")) "Visit" (Declaration.build "Visit" visit),
    .field (head "days" 32 number) number]

def tripMembers : List Member :=
  [.extend (head "visit" 0 (.record "Visit")) "Visit"
      [.extend (head "place" 0 (.record "Place")) "Place" [.field (head "name" 0 .string) .string],
        .field (head "minutes" 24 (.option number)) (.option number)],
    .field (head "days" 32 number) number]

def plainId (name : String) : FieldId := ⟨0, name, .string⟩

/-- What a trip is declared as without extensions. -/
def tour : List MemberCall := (Member.leavesAll tripMembers).map (Leaf.call plainId)

def placeValue (name : String) : Val := .record [("name", .text name)]

def visitValue (name : String) (minutes : Val) : Val :=
  .record [("place", placeValue name), ("minutes", minutes)]

def tripValue (name : String) (minutes : Val) (days : Int) : Val :=
  .record [("visit", visitValue name minutes), ("days", .int days)]

def info (name : String) (fields : List (String × Ty)) (initial : Val) (calls : List MemberCall) :
    StructureInfo :=
  ⟨name, name, fields, [], initial, Declaration.build name calls⟩

def tripFields : List (String × Ty) := [("visit", .record "Visit"), ("days", number)]

def schema : Schema where
  structures :=
    [info "Place" [("name", .string)] (placeValue "") place,
      info "Visit" [("place", .record "Place"), ("minutes", .option number)] (visitValue "" .absent)
        visit,
      info "Trip" tripFields (tripValue "" .absent 0) trip,
      info "Tour" tripFields (tripValue "" .absent 0) tour]
  enumerations := []
  textuals := []

theorem place_typed (name : String) : schema.HasType (.record "Place") (placeValue name) := by
  apply Schema.HasType.record rfl
  intro field type known inner found
  obtain ⟨rfl, rfl⟩ := Prod.mk.inj (List.mem_singleton.mp known)
  cases found
  exact .string name

theorem visit_typed (name : String) {minutes : Val} (typed : schema.HasType (.option number) minutes) :
    schema.HasType (.record "Visit") (visitValue name minutes) := by
  apply Schema.HasType.record rfl
  intro field type known inner found
  have known : (field, type) ∈ [("place", .record "Place"), ("minutes", .option number)] := known
  simp only [List.mem_cons, Prod.mk.injEq, List.not_mem_nil, or_false] at known
  rcases known with ⟨rfl, rfl⟩ | ⟨rfl, rfl⟩ <;> cases found
  · exact place_typed name
  · exact typed

theorem trip_fields_typed (name : String) {minutes : Val} {days : Int}
    (typed : schema.HasType (.option number) minutes) (fits : IntKind.u8.holds days = true) :
    ∀ field type, (field, type) ∈ tripFields → ∀ inner,
      Val.lookup [("visit", visitValue name minutes), ("days", .int days)] field = some inner →
        schema.HasType type inner := by
  intro field type known inner found
  simp only [tripFields, List.mem_cons, Prod.mk.injEq, List.not_mem_nil, or_false] at known
  rcases known with ⟨rfl, rfl⟩ | ⟨rfl, rfl⟩ <;> cases found
  · exact visit_typed name typed
  · exact .int fits

theorem trip_typed (name : String) {minutes : Val} {days : Int}
    (typed : schema.HasType (.option number) minutes) (fits : IntKind.u8.holds days = true) :
    schema.HasType (.record "Trip") (tripValue name minutes days) :=
  .record rfl (trip_fields_typed name typed fits)

theorem tour_calls_sound : ∀ call ∈ tour, schema.CallSound "Tour" call := by
  have visit : schema.Leads (.record "Tour") ["visit"] (.record "Visit") :=
    ⟨"Tour", _, rfl, List.mem_cons_self, rfl⟩
  have place : schema.Leads (.record "Visit") ["place"] (.record "Place") :=
    ⟨"Visit", _, rfl, List.mem_cons_self, rfl⟩
  have name : schema.Leads (.record "Place") ["name"] .string :=
    ⟨"Place", _, rfl, List.mem_cons_self, rfl⟩
  have minutes : schema.Leads (.record "Visit") ["minutes"] (.option number) :=
    ⟨"Visit", _, rfl, List.mem_cons_of_mem _ List.mem_cons_self, rfl⟩
  have days : schema.Leads (.record "Tour") ["days"] number :=
    ⟨"Tour", _, rfl, List.mem_cons_of_mem _ List.mem_cons_self, rfl⟩
  have calls : tour = [.field ⟨"name", plainId "name", ["visit", "place", "name"]⟩ .string,
    .field ⟨"minutes", plainId "minutes", ["visit", "minutes"]⟩ (.option number),
    .field ⟨"days", plainId "days", ["days"]⟩ number] := rfl
  rw [calls]
  simp only [List.forall_mem_cons, Schema.CallSound]
  exact ⟨⟨by simp, Schema.leads_append visit (Schema.leads_append place name)⟩,
    ⟨by simp, Schema.leads_append visit minutes⟩, ⟨by simp, days⟩, by simp⟩

theorem place_calls_sound : ∀ call ∈ place, schema.CallSound "Place" call := by
  simp only [place, List.forall_mem_cons, Schema.CallSound]
  exact ⟨⟨by simp [head], "Place", _, rfl, List.mem_cons_self, rfl⟩, by simp⟩

theorem visit_calls_sound : ∀ call ∈ visit, schema.CallSound "Visit" call := by
  simp only [visit, List.forall_mem_cons, Schema.CallSound]
  exact ⟨⟨by simp [head], ⟨"Visit", _, rfl, List.mem_cons_self, rfl⟩, rfl⟩,
    ⟨by simp [head], "Visit", _, rfl, List.mem_cons_of_mem _ List.mem_cons_self, rfl⟩, by simp⟩

theorem trip_calls_sound : ∀ call ∈ trip, schema.CallSound "Trip" call := by
  simp only [trip, List.forall_mem_cons, Schema.CallSound]
  exact ⟨⟨by simp [head], ⟨"Trip", _, rfl, List.mem_cons_self, rfl⟩, rfl⟩,
    ⟨by simp [head], "Trip", _, rfl, List.mem_cons_of_mem _ List.mem_cons_self, rfl⟩, by simp⟩

theorem sound : schema.Sound := by
  have structures : schema.structures =
      [info "Place" [("name", .string)] (placeValue "") place,
        info "Visit" [("place", .record "Place"), ("minutes", .option number)] (visitValue "" .absent)
          visit,
        info "Trip" tripFields (tripValue "" .absent 0) trip,
        info "Tour" tripFields (tripValue "" .absent 0) tour] := rfl
  apply Schema.sound_of_structures rfl <;> rw [structures] <;> simp only [List.forall_mem_cons]
  · exact ⟨by decide, by decide, by decide, by decide, nofun⟩
  · exact ⟨place_typed "", visit_typed "" .absent, trip_typed "" .absent (by decide),
      .record rfl (trip_fields_typed "" .absent (by decide)), nofun⟩
  · exact ⟨⟨place, rfl, place_calls_sound⟩, ⟨visit, rfl, visit_calls_sound⟩,
      ⟨trip, rfl, trip_calls_sound⟩, ⟨tour, rfl, tour_calls_sound⟩, nofun⟩

end Journey

/-- A trip, which extends a visit, which extends a place, beside a structure that has the members of
all three. Both write the same fields, and both read the same from a document whose last field is out
of range: all that stands before it. -/
theorem Schema.extending_is_inlining_trip :
    let trip := Journey.tripValue "Delphi" (.present (.int 90)) 3
    let written : Fields := [("name", .text "Delphi"), ("minutes", .uint 90), ("days", .uint 3)]
    let document : Fields := [("name", .text "Dodona"), ("minutes", .null), ("days", .uint 300)]
    let fault : Fault := ⟨.outOfRange "300" "u8", [.field "days"]⟩
    let reached := Journey.tripValue "Dodona" .absent 3
    Journey.schema.Sound ∧
      (Journey.schema.structureInfo "Trip").members = .ok Journey.tripMembers ∧
      ((Member.outputsAll Journey.tripMembers).map Journey.plainId).Nodup ∧
      Journey.schema.HasType (.record "Trip") trip ∧
      (Journey.schema.structureInfo "Tour").members = Declaration.build "Tour" Journey.tour ∧
      Journey.schema.writeObject treeSink "Trip" trip [] = (.ok (), written) ∧
      Journey.schema.writeObject treeSink "Tour" trip [] = (.ok (), written) ∧
      Journey.schema.readObject "Trip" trip document = ⟨.error fault, reached, document, []⟩ ∧
      Journey.schema.readObject "Tour" trip document = ⟨.error fault, reached, document, []⟩ := by
  intro trip written document fault reached
  have declared : (Journey.schema.structureInfo "Trip").members = .ok Journey.tripMembers := rfl
  have distinct : ((Member.outputsAll Journey.tripMembers).map Journey.plainId).Nodup := by decide
  have typed : Journey.schema.HasType (.record "Trip") trip :=
    Journey.trip_typed "Delphi" (.present (.int (by decide))) (by decide)
  have extended : Journey.schema.writeObject treeSink "Trip" trip [] = (.ok (), written) := by cbv
  have partly : Journey.schema.readObject "Trip" trip document =
      ⟨.error fault, reached, document, []⟩ := by cbv
  obtain ⟨plain, built, same⟩ := extending_is_inlining Journey.sound declared distinct
  have inlined : (Journey.schema.structureInfo "Tour").members = .ok plain := built "Tour"
  obtain ⟨writes, reads⟩ := same "Tour" inlined
  exact ⟨Journey.sound, declared, distinct, typed, rfl, extended,
    (congrFun (writes treeSink trip typed) []).trans extended, partly,
    (reads trip typed document).trans partly⟩

end Marshal
