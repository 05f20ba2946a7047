import Marshal.Proofs.Reading.Interrupted
import Marshal.Proofs.Structure.Projection
import Marshal.Proofs.Value.Selections

/-!
# Reading chosen members

A member is read into a part of its owner, from fields of its own. Where the members of a structure
access distinct fields, these parts lie apart, so reading some of the members leaves all others, and
each is read as if it were the only one. An extension is read into one part, however many fields it
fills there.
-/

namespace Marshal

/-- What a member is read as, an extension as the structure that it extends. -/
def Member.type : Member → Ty
  | .field _ type => type
  | .extend _ base _ => .record base

namespace Schema

variable {schema : Schema} {name : String} {members : List Member}

section Members

/-- Reads the part of an owner that a member stands for. -/
def readInner (schema : Schema) (fields : Fields) (target : Val) : Member → Reading Val Fields
  | .field head type =>
      let reading := schema.readNamed type target head.name fields
      { reading with outcome := reading.outcome.mapError (Fault.inField head.name) }
  | .extend _ _ members => schema.readMembers schema.readObject target fields members

def innerPortion (schema : Schema) (fields : Fields) (member : Member) : Portion where
  trail := member.head.path.map Segment.field
  fallback := schema.default member.type
  step target := (schema.readInner fields target member).made

theorem read_member_made (schema : Schema) (owner : Val) (fields : Fields) (member : Member) :
    (schema.readMember schema.readObject owner fields member).made =
      (schema.innerPortion fields member).filled owner := by
  cases member <;>
    simp only [readMember, innerPortion, Portion.filled, readInner, readNamed, read, Reading.made,
      memberValue, Member.head, Member.type, Schema.default, Val.at_fields, Val.set_overwrite]

/-- What a member is read as does not depend on the positions of arrays. -/
theorem member_rewound (schema : Schema) (member : Member) (owner : Val) {left right : Fields}
    (kept : (Node.struct left).rewound = (Node.struct right).rewound) :
    (schema.readMember schema.readObject owner left member).made =
      (schema.readMember schema.readObject owner right member).made := by
  have alike : Likeness.rewound.ReadingsAlike Likeness.rewound.fields
      (schema.readMember schema.readObject owner left member)
      (schema.readMember schema.readObject owner right member) :=
    read_member_alike (fun name target _ _ fields => object_alike name target fields) member owner
      (Likeness.rewound_fields kept)
  exact Likeness.made_rewound alike

/-- Reading a member moves the positions of arrays at most, so the members after it are read from the
fields as they were at first. -/
theorem read_members_made (assembled : schema.Assembled) (members : List Member) (owner : Val)
    {fields left : Fields} (kept : (Node.struct left).rewound = (Node.struct fields).rewound) :
    (schema.readMembers schema.readObject owner left members).made =
      Step.all ((members.map (schema.innerPortion fields)).map Portion.filled) owner := by
  induction members generalizing owner left with
  | nil =>
      rw [readMembers]
      rfl
  | cons member rest induction =>
      have traced := read_member_traced assembled (object_traced assembled) member owner left
      have moved := traced.kept.trans kept
      have own := schema.member_rewound member owner kept
      have further := induction (schema.readMember schema.readObject owner left member).target moved
      rw [read_member_made _ _ fields] at own
      simp only [List.map_cons, read_members_cons, Step.all_cons, Step.andThen, ← own]
      rcases first : schema.readMember schema.readObject owner left member with
        ⟨_ | _, target, source, log⟩
      · rfl
      · rw [first] at further
        exact further

theorem member_leads {member : Member} (reach : schema.MemberSound name member) :
    schema.Leads (.record name) member.head.path member.type := by
  cases member with
  | field head type => exact reach.2
  | extend head base members => exact reach.2.1

/-- Reading a member once more into what has been read changes nothing. -/
theorem inner_lasts (sound : schema.Sound) {member : Member}
    (reach : schema.MemberSound name member) (fields : Fields) :
    (schema.innerPortion fields member).Lasts (schema.Shaped (.record name)) := by
  intro whole result shaped run
  rw [← read_member_made] at run
  obtain ⟨done, rfl⟩ := Prod.mk.inj run
  have overwrites := read_member_overwrites schema.readObject sound (object_overwrites sound) member
    reach fields
  obtain ⟨reshaped, same⟩ := overwrites.again sound shaped done
  refine ⟨reshaped, ?_⟩
  rw [← read_member_made]
  exact (congrArg Reading.made same).trans run

end Members

section Partial

variable (sound : schema.Sound) (assembled : schema.Assembled)
  (declared : (schema.structureInfo name).members = .ok members)
include sound assembled declared

/-- Members that are chosen are read as values of their own are. -/
theorem read_partial_eq {ids : List FieldId} (known : ∀ id ∈ ids, Member.IsDeclared members id)
    (target : Val) (fields : Fields) :
    schema.readPartial name target ids fields =
      schema.readMembers schema.readObject target fields (Member.chosen members ids) := by
  have agree (child : Fields) (shallow : (Node.struct child).depth ≤ Node.depthFields fields)
      (name : String) (target : Val) :
      schema.readStructure (Node.struct fields).depth name target child =
        schema.readObject name target child :=
    read_structure_enough assembled (shallow.trans (Nat.le_succ _)) name target
  rw [readPartial, selected_chosen sound declared known]
  exact read_members_shallow assembled agree _ target le_rfl

theorem read_partial_made {ids : List FieldId} (known : ∀ id ∈ ids, Member.IsDeclared members id)
    (target : Val) {fields left : Fields}
    (kept : (Node.struct left).rewound = (Node.struct fields).rewound) :
    (schema.readPartial name target ids left).made = Step.all
      (((Member.chosen members ids).map (schema.innerPortion fields)).map Portion.filled) target := by
  rw [read_partial_eq sound assembled declared known]
  exact read_members_made assembled _ target kept

/-- A reading of chosen members leaves the document as it is, but for the positions of arrays. -/
theorem read_partial_kept {ids : List FieldId} (known : ∀ id ∈ ids, Member.IsDeclared members id)
    (target : Val) (fields : Fields) :
    (Node.struct (schema.readPartial name target ids fields).source).rewound =
      (Node.struct fields).rewound := by
  rw [read_partial_eq sound assembled declared known]
  exact (read_members_traced assembled (object_traced assembled) _ target fields).kept

/-- What is skipped is left, inside of extended structures too. -/
theorem unread_kept {target : Val} (typed : schema.HasType (.record name) target)
    {ids : List FieldId} (known : ∀ id ∈ ids, Member.IsDeclared members id) (fields : Fields)
    {path : Val.Path}
    (clear : ∀ leaf ∈ Member.leavesAll (Member.chosen members ids), Val.Apart leaf.path path) :
    (schema.readPartial name target ids fields).target.get? path = target.get? path := by
  have within : (Member.chosen members ids).Sublist members := List.filter_sublist
  have reach := members_sound sound declared
  have chosenReach : schema.MembersSound name (Member.chosen members ids) :=
    members_sound_iff.mpr fun member inside => members_sound_iff.mp reach member (within.subset inside)
  have distinct := leaves_distinct sound name
  rw [leaves_declared declared, Member.leaves_all_names] at distinct
  have chosenDistinct := (Member.outputs_all_within within).nodup distinct
  rw [← Member.leaves_all_names] at chosenDistinct
  have filled := read_members_filled sound chosenReach chosenDistinct (typed_formed typed) fields
  rw [read_partial_eq sound assembled declared known, ← Val.at_fields, ← Val.at_fields]
  rw [show (schema.readMembers schema.readObject target fields _).target = _ from
    congrArg Prod.snd filled]
  exact Portion.all_filled_beside
    (List.forall_mem_map.mpr fun leaf inside => Val.apart_fields.mpr (clear leaf inside)) target

variable (apart : members.Pairwise fun first second => Val.Apart first.head.path second.head.path)
include apart

omit sound assembled declared in
theorem inner_apart (fields : Fields) : members.Pairwise fun first second =>
    (schema.innerPortion fields first).trail.Apart (schema.innerPortion fields second).trail :=
  apart.imp Val.apart_fields.mpr

theorem unchosen_kept (target : Val) {ids : List FieldId}
    (known : ∀ id ∈ ids, Member.IsDeclared members id) (fields : Fields) {member : Member}
    (inside : member ∈ members) (outside : member.id ∉ ids) :
    (schema.readPartial name target ids fields).target.get? member.head.path =
      target.get? member.head.path := by
  have filled := read_partial_made sound assembled declared known target
    (rfl : (Node.struct fields).rewound = _)
  rw [← Val.at_fields, ← Val.at_fields,
    show (schema.readPartial name target ids fields).target = _ from congrArg Prod.snd filled]
  refine Portion.all_filled_beside (List.forall_mem_map.mpr fun other chosen => ?_) target
  obtain ⟨otherInside, asked⟩ := Member.mem_chosen.mp chosen
  have : Std.Symm fun first second : Member =>
      (schema.innerPortion fields first).trail.Apart (schema.innerPortion fields second).trail :=
    ⟨fun _ _ apart => apart.symm⟩
  exact (inner_apart apart fields).forall otherInside inside fun same => outside (same ▸ asked)

/-- Every chosen member holds what is read of it alone, be it as the only one that is asked for, by
itself or into the part of the owner that it stands for. -/
theorem chosen_read_alone {target : Val} (typed : schema.HasType (.record name) target)
    {ids : List FieldId} (known : ∀ id ∈ ids, Member.IsDeclared members id) (fields : Fields)
    (ok : (schema.readPartial name target ids fields).outcome = .ok ()) {member : Member}
    (inside : member ∈ members) (asked : member.id ∈ ids) :
    ∃ part result, target.get? member.head.path = some part ∧
      (schema.readInner fields part member).made = (.ok (), result) ∧
      (schema.readMember schema.readObject target fields member).made =
        (schema.readPartial name target [member.id] fields).made ∧
      (schema.readPartial name target [member.id] fields).outcome = .ok () ∧
      (schema.readPartial name target [member.id] fields).target.get? member.head.path = some result ∧
      (schema.readPartial name target ids fields).target.get? member.head.path = some result := by
  have own : (Node.struct fields).rewound = (Node.struct fields).rewound := rfl
  have reach := members_sound_iff.mp (members_sound sound declared)
  have present (other : Member) (inside : other ∈ members) :
      ∃ part, target.at? (schema.innerPortion fields other).trail = some part := by
    obtain ⟨part, found, -⟩ := leads_get (member_leads (reach other inside)) typed
    exact ⟨part, (Val.at_fields target _).trans found⟩
  have chosenApart : Portion.AllApart
      ((Member.chosen members ids).map (schema.innerPortion fields)) :=
    List.pairwise_map.mpr ((inner_apart apart fields).sublist List.filter_sublist)
  have filled := read_partial_made sound assembled declared known target own
  obtain ⟨each, -⟩ := Portion.all_filled chosenApart
    (List.forall_mem_map.mpr fun other chosen => present other (Member.mem_chosen.mp chosen).1)
    (filled.symm.trans (Prod.ext ok rfl))
  obtain ⟨old, new, found, made, left⟩ :=
    each _ (List.mem_map_of_mem (Member.mem_chosen.mpr ⟨inside, asked⟩))
  have declaredAlone : ∀ id ∈ [member.id], Member.IsDeclared members id :=
    List.forall_mem_singleton.mpr ⟨member, inside, rfl⟩
  have alone := read_partial_made sound assembled declared declaredAlone target own
  rw [Member.chosen_alone (members_distinct sound declared) inside] at alone
  have single : (schema.innerPortion fields member).filled target =
      (.ok (), target.overwrite (schema.innerPortion fields member).trail new) := by
    rw [Portion.filled, found, Option.getD_some, made]
  have once : (schema.readPartial name target [member.id] fields).made = _ :=
    alone.trans (Step.all_cons_ok.mpr ⟨_, single, rfl⟩)
  have itself := (read_member_made schema target fields member).trans (single.trans once.symm)
  obtain ⟨aloneOk, aloneTarget⟩ := Prod.mk.inj once
  refine ⟨old, new, (Val.at_fields _ _).symm.trans found, made, itself, aloneOk, ?_, ?_⟩
  · rw [aloneTarget, ← Val.at_fields]
    exact Val.at_overwrite_own found new
  · exact (Val.at_fields _ _).symm.trans left

/-- A chosen field holds what is read for it as a value of its own. -/
theorem chosen_field_read {target : Val} (typed : schema.HasType (.record name) target)
    {ids : List FieldId} (known : ∀ id ∈ ids, Member.IsDeclared members id) (fields : Fields)
    (ok : (schema.readPartial name target ids fields).outcome = .ok ()) {head : MemberHead} {type : Ty}
    (inside : .field head type ∈ members) (asked : head.id ∈ ids) :
    ∃ part, target.get? head.path = some part ∧
      (schema.readNamed type part head.name fields).outcome = .ok () ∧
      (schema.readPartial name target ids fields).target.get? head.path =
        some (schema.readNamed type part head.name fields).target := by
  obtain ⟨part, result, found, made, -, -, -, held⟩ :=
    chosen_read_alone sound assembled declared apart typed known fields ok inside asked
  obtain ⟨done, rfl⟩ := Prod.mk.inj made
  refine ⟨part, found, ?_, held⟩
  cases own : (schema.readNamed type part head.name fields).outcome with
  | ok => rfl
  | error fault => simp [readInner, own, Except.mapError] at done

/-- A chosen extension holds what is read for the structure that it extends. -/
theorem chosen_extension_read {target : Val} (typed : schema.HasType (.record name) target)
    {ids : List FieldId} (known : ∀ id ∈ ids, Member.IsDeclared members id) (fields : Fields)
    (ok : (schema.readPartial name target ids fields).outcome = .ok ()) {head : MemberHead}
    {base : String} {extended : List Member} (inside : .extend head base extended ∈ members)
    (asked : head.id ∈ ids) :
    ∃ part, target.get? head.path = some part ∧
      (schema.readObject base part fields).outcome = .ok () ∧
      (schema.readPartial name target ids fields).target.get? head.path =
        some (schema.readObject base part fields).target := by
  obtain ⟨part, result, found, made, -, -, -, held⟩ :=
    chosen_read_alone sound assembled declared apart typed known fields ok inside asked
  have same : schema.readObject base part fields =
      schema.readInner fields part (.extend head base extended) := by
    rw [read_object_eq assembled, extension_declared sound declared inside, readInner]
  rw [← same] at made
  obtain ⟨done, rfl⟩ := Prod.mk.inj made
  exact ⟨part, found, done, held⟩

/-- Two lists one after the other are read as one. -/
theorem chosen_read_twice {target : Val} (typed : schema.HasType (.record name) target)
    {ids more : List FieldId} (known : ∀ id ∈ ids, Member.IsDeclared members id)
    (further : ∀ id ∈ more, Member.IsDeclared members id) {fields left : Fields}
    (kept : (Node.struct left).rewound = (Node.struct fields).rewound)
    (ok : (schema.readPartial name target ids fields).outcome = .ok ())
    (again : (schema.readPartial name (schema.readPartial name target ids fields).target more
      left).outcome = .ok ()) :
    (schema.readPartial name target (ids ++ more) fields).made =
      (schema.readPartial name (schema.readPartial name target ids fields).target more left).made := by
  have reach := members_sound_iff.mp (members_sound sound declared)
  have both : ∀ id ∈ ids ++ more, Member.IsDeclared members id :=
    List.forall_mem_append.mpr ⟨known, further⟩
  have first := read_partial_made sound assembled declared known target
    (rfl : (Node.struct fields).rewound = _)
  have second := read_partial_made sound assembled declared further
    (schema.readPartial name target ids fields).target kept
  have either := Portion.filled_either (inner_apart apart fields)
    (fun member inside => inner_lasts sound (reach member inside) fields) (has_type_shaped typed)
    (fun member => member.id ∈ ids) (fun member => member.id ∈ more)
    (first.symm.trans (Prod.ext ok rfl)) (second.symm.trans (Prod.ext again rfl))
  have chosen : Member.chosen members (ids ++ more) =
      members.filter fun member => decide (member.id ∈ ids) || decide (member.id ∈ more) := by
    simp only [Member.chosen, List.mem_append, Bool.decide_or]
  rw [read_partial_made sound assembled declared both target (rfl : (Node.struct fields).rewound = _),
    chosen]
  exact either.trans (Prod.ext again.symm rfl)

end Partial

/-- Reading some members of a structure leaves all its other members and everything that is skipped,
even when it fails, and does not depend on the order in which the members are asked for, or how often.
When it succeeds, each of them holds what is read of it alone: a field what is read under its name as a
value of its own, and an extension what is read for the structure that it extends. Reading some members
and then some more is reading all of these at once. The first field that is not declared is refused,
before anything is read. -/
theorem chosen_members_read (sound : schema.Sound) (assembled : schema.Assembled)
    (declared : (schema.structureInfo name).members = .ok members)
    (apart : members.Pairwise fun first second => Val.Apart first.head.path second.head.path)
    {target : Val} (typed : schema.HasType (.record name) target) (fields : Fields)
    (ids : List FieldId) :
    ((∀ id ∈ ids, Member.IsDeclared members id) →
      let reading := schema.readPartial name target ids fields
      (∀ member ∈ members, member.id ∉ ids →
        reading.target.get? member.head.path = target.get? member.head.path) ∧
      (∀ path, (∀ leaf ∈ Member.leavesAll (Member.chosen members ids), Val.Apart leaf.path path) →
        reading.target.get? path = target.get? path) ∧
      (∀ others, (∀ id, id ∈ others ↔ id ∈ ids) →
        schema.readPartial name target others fields = reading) ∧
      (reading.outcome = .ok () →
        (∀ member ∈ members, member.id ∈ ids →
          let alone := schema.readPartial name target [member.id] fields
          alone.outcome = .ok () ∧
            (schema.readMember schema.readObject target fields member).made = alone.made ∧
            ∃ result, alone.target.get? member.head.path = some result ∧
              reading.target.get? member.head.path = some result) ∧
        (∀ head type, .field head type ∈ members → head.id ∈ ids →
          ∃ part, target.get? head.path = some part ∧
            let value := schema.readNamed type part head.name fields
            value.outcome = .ok () ∧ reading.target.get? head.path = some value.target) ∧
        (∀ head base extended, .extend head base extended ∈ members → head.id ∈ ids →
          ∃ part, target.get? head.path = some part ∧
            let value := schema.readObject base part fields
            value.outcome = .ok () ∧ reading.target.get? head.path = some value.target) ∧
        ∀ more, (∀ id ∈ more, Member.IsDeclared members id) →
          let second := schema.readPartial name reading.target more reading.source
          second.outcome = .ok () →
            let both := schema.readPartial name target (ids ++ more) fields
            both.outcome = .ok () ∧ both.target = second.target)) ∧
    ∀ before id after, ids = before ++ id :: after →
      (∀ earlier ∈ before, Member.IsDeclared members earlier) → ¬ Member.IsDeclared members id →
        ∃ fault, fault.kind = .lookup ∧
          fault = .of (.undeclaredField (schema.structureInfo name).label id.offset) ∧
          schema.readPartial name target ids fields = ⟨.error fault, target, fields, []⟩ := by
  constructor
  · intro known
    refine ⟨?_, ?_, ?_, ?_⟩
    · intro member inside outside
      exact unchosen_kept sound assembled declared apart target known fields inside outside
    · intro path clear
      exact unread_kept sound assembled declared typed known fields clear
    · intro others same
      have otherKnown : ∀ id ∈ others, Member.IsDeclared members id := fun id inside =>
        known id ((same id).mp inside)
      have chosen : Member.chosen members others = Member.chosen members ids := by
        simp only [Member.chosen, same]
      rw [read_partial_eq sound assembled declared known,
        read_partial_eq sound assembled declared otherKnown, chosen]
    · intro ok
      refine ⟨?_, ?_, ?_, ?_⟩
      · intro member inside asked
        obtain ⟨-, result, -, -, same, done, alone, held⟩ :=
          chosen_read_alone sound assembled declared apart typed known fields ok inside asked
        exact ⟨done, same, result, alone, held⟩
      · intro head type inside asked
        exact chosen_field_read sound assembled declared apart typed known fields ok inside asked
      · intro head base extended inside asked
        exact chosen_extension_read sound assembled declared apart typed known fields ok inside asked
      · intro more further second again
        have kept := read_partial_kept sound assembled declared known target fields
        exact Prod.mk.inj ((chosen_read_twice sound assembled declared apart typed known further kept ok
          again).trans (Prod.ext again rfl))
  · rintro before id after rfl known unknown
    refine ⟨_, rfl, rfl, ?_⟩
    rw [readPartial, selected_undeclared declared known unknown]

end Schema

theorem Journey.assembled : Journey.schema.Assembled := by
  have trip : Declaration.Declared (Declaration.build "Trip" trip) := by
    apply Declaration.Declared.build
    intro head base outcome inside
    obtain ⟨-, -, rfl⟩ : _ ∧ _ ∧ outcome = Declaration.build "Visit" visit := by
      simpa [Journey.trip] using inside
    exact visit_declared
  have tour : Declaration.Declared (Declaration.build "Tour" tour) := by
    apply Declaration.Declared.build
    intro head base outcome inside
    obtain ⟨leaf, -, plain⟩ := List.mem_map.mp inside
    cases plain
  apply Schema.assembled_of_structures rfl
  simp only [schema, info, List.forall_mem_cons]
  exact ⟨place_declared, visit_declared, trip, tour, by simp⟩

/-- A visit is read, and then the days, which each hold what the document says of them; a field that is
not declared is asked for after one that is. -/
theorem Schema.chosen_members_read_trip :
    let before := Journey.visitValue "Delphi" (.present (.int 90))
    let after := Journey.visitValue "Dodona" .absent
    let target := Journey.tripValue "Delphi" (.present (.int 90)) 3
    let document : Fields := [("name", .text "Dodona"), ("minutes", .null), ("days", .uint 4)]
    let visit : FieldId := ⟨0, "visit", .record "Visit"⟩
    let days : FieldId := ⟨32, "days", Journey.number⟩
    let weeks : FieldId := ⟨32, "weeks", Journey.number⟩
    let reading := Journey.schema.readPartial "Trip" target [visit, visit] document
    let second := Journey.schema.readPartial "Trip" reading.target [days] reading.source
    let both := Journey.schema.readPartial "Trip" target [visit, visit, days] document
    Journey.schema.Sound ∧ Journey.schema.Assembled ∧
      (Journey.schema.structureInfo "Trip").members = .ok Journey.tripMembers ∧
      (Journey.tripMembers.Pairwise fun first second =>
        Val.Apart first.head.path second.head.path) ∧
      Journey.schema.HasType (.record "Trip") target ∧
      (∀ id ∈ [visit, visit], Member.IsDeclared Journey.tripMembers id) ∧
      Member.IsDeclared Journey.tripMembers days ∧ ¬ Member.IsDeclared Journey.tripMembers weeks ∧
      reading.outcome = .ok () ∧ reading.target.get? ["days"] = target.get? ["days"] ∧
      target.get? ["visit"] = some before ∧
      (Journey.schema.readObject "Visit" before document).target = after ∧
      reading.target.get? ["visit"] = some after ∧ second.outcome = .ok () ∧
      both.outcome = .ok () ∧ both.target = second.target ∧
      target.get? ["days"] = some (.int 3) ∧
      (Journey.schema.readNamed Journey.number (.int 3) "days" document).target = .int 4 ∧
      both.target.get? ["days"] = some (.int 4) ∧ both.target.get? ["visit"] = some after ∧
      Journey.schema.readPartial "Trip" target [days, weeks, visit] document =
        ⟨.error (.of (.undeclaredField "Trip" 32)), target, document, []⟩ := by
  intro before after target document visit days weeks reading second both
  have declared : (Journey.schema.structureInfo "Trip").members = .ok Journey.tripMembers := rfl
  have apart : Journey.tripMembers.Pairwise fun first second =>
      Val.Apart first.head.path second.head.path := by
    simp [Journey.tripMembers, Member.head, Journey.head, Val.Apart]
  have typed : Journey.schema.HasType (.record "Trip") target :=
    Journey.trip_typed "Delphi" (.present (.int (by decide))) (by decide)
  have visits : Member.IsDeclared Journey.tripMembers visit := ⟨_, List.mem_cons_self, rfl⟩
  have last : Member.IsDeclared Journey.tripMembers days :=
    ⟨_, List.mem_cons_of_mem _ List.mem_cons_self, rfl⟩
  have known : ∀ id ∈ [visit, visit], Member.IsDeclared Journey.tripMembers id := by
    simp only [List.forall_mem_cons]
    exact ⟨visits, visits, by simp⟩
  have unknown : ¬ Member.IsDeclared Journey.tripMembers weeks := by
    simp [Member.IsDeclared, Journey.tripMembers, Member.id, Member.head, Journey.head, weeks]
  have ok : reading.outcome = .ok () := by decide +kernel
  have again : second.outcome = .ok () := by decide +kernel
  have visited : (Journey.schema.readObject "Visit" before document).target = after := by cbv
  have counted :
      (Journey.schema.readNamed Journey.number (.int 3) "days" document).target = .int 4 := by cbv
  obtain ⟨read, -⟩ :=
    chosen_members_read Journey.sound Journey.assembled declared apart typed document [visit, visit]
  obtain ⟨unchosen, -, -, succeeds⟩ := read known
  obtain ⟨-, -, extensions, twice⟩ := succeeds ok
  obtain ⟨part, found, -, held⟩ := extensions (Journey.head "visit" 0 (.record "Visit")) "Visit" _
    List.mem_cons_self List.mem_cons_self
  have stood : target.get? ["visit"] = some before := rfl
  obtain rfl : before = part := Option.some.inj (stood.symm.trans found)
  obtain ⟨bothOk, bothRead⟩ := twice [days] (List.forall_mem_singleton.mpr last) again
  obtain ⟨readBoth, -⟩ := chosen_members_read Journey.sound Journey.assembled declared apart typed
    document [visit, visit, days]
  obtain ⟨-, -, -, bothSucceed⟩ := readBoth
    (List.forall_mem_cons.mpr ⟨visits, List.forall_mem_cons.mpr ⟨visits,
      List.forall_mem_singleton.mpr last⟩⟩)
  obtain ⟨-, fields, bothExtensions, -⟩ := bothSucceed bothOk
  obtain ⟨number, foundNumber, -, heldNumber⟩ := fields (Journey.head "days" 32 Journey.number)
    Journey.number (List.mem_cons_of_mem _ List.mem_cons_self) (by decide)
  have counting : target.get? ["days"] = some (.int 3) := rfl
  obtain rfl : Val.int 3 = number := Option.some.inj (counting.symm.trans foundNumber)
  obtain ⟨place, foundPlace, -, heldPlace⟩ := bothExtensions
    (Journey.head "visit" 0 (.record "Visit")) "Visit" _ List.mem_cons_self List.mem_cons_self
  obtain rfl : before = place := Option.some.inj (stood.symm.trans foundPlace)
  obtain ⟨-, refused⟩ := chosen_members_read Journey.sound Journey.assembled declared apart typed
    document [days, weeks, visit]
  obtain ⟨fault, -, rfl, same⟩ := refused [days] weeks [visit] rfl
    (List.forall_mem_singleton.mpr last) unknown
  exact ⟨Journey.sound, Journey.assembled, declared, apart, typed, known, last, unknown, ok,
    unchosen _ (List.mem_cons_of_mem _ List.mem_cons_self) (by decide), stood, visited,
    held.trans (congrArg some visited), again, bothOk, bothRead, counting, counted,
    heldNumber.trans (congrArg some counted), heldPlace.trans (congrArg some visited), same⟩

end Marshal
