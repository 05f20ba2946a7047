import Marshal.Proofs.Value.Shape
import Marshal.Read.Value

/-!
# Reading the same place again

What a reading makes of its target is decided by the source alone: it fails for every target alike,
or it overwrites the same places with the same parts in each. So reading once more into what has
been read changes nothing.
-/

namespace Marshal

namespace Val

theorem mem_under {trail : Trail} {parts : List (Trail × Val)} {part : Trail × Val}
    (inside : part ∈ trail.foldr beneath parts) :
    ∃ inner ∈ parts, part.1 = trail ++ inner.1 := by
  induction trail generalizing part with
  | nil => exact ⟨part, inside, rfl⟩
  | cons segment trail induction =>
      obtain ⟨middle, further, rfl⟩ := List.mem_map.mp inside
      obtain ⟨inner, innerInside, same⟩ := induction further
      exact ⟨inner, innerInside, congrArg (segment :: ·) same⟩

end Val

namespace Schema

variable {schema : Schema}

/-- That a reading fails alike for all targets of a type's shape, or overwrites the same parts of
each and leaves the same source. -/
def Overwrites (schema : Schema) (type : Ty) {State : Type} (read : Val → Reading Val State) : Prop :=
  (∃ fault, ∀ target, schema.Shaped type target → (read target).outcome = .error fault) ∨
    ∃ parts source log, (∀ part ∈ parts, schema.Replaces type part.1) ∧
      ∀ target, schema.Shaped type target →
        read target = ⟨.ok (), target.overwriteAll parts, source, log⟩

/-- That the target of a reading does not matter to it once it succeeds. -/
def Fresh {State : Type} (read : Val → Reading Val State) : Prop :=
  ∀ first second, (read first).outcome = (read second).outcome ∧
    ((read first).outcome = .ok () → read second = read first)

section Places

variable {type : Ty} {State : Type} {read : Val → Reading Val State}

theorem fresh_overwrites (replaced : type.isReplaced = true) (fresh : Fresh read) :
    schema.Overwrites type read := by
  cases outcome : (read .absent).outcome with
  | error fault => exact .inl ⟨fault, fun target _ => (fresh target .absent).1.trans outcome⟩
  | ok done =>
      refine .inr ⟨[([], (read .absent).target)], (read .absent).source, (read .absent).log, ?_, ?_⟩
      · intro part inside
        obtain rfl := List.mem_singleton.mp inside
        exact ⟨type, rfl, replaced⟩
      · intro target _
        rw [(fresh .absent target).2 outcome, ← outcome]
        rfl

theorem overwrites_unboxed : schema.Overwrites type.unboxed read ↔ schema.Overwrites type read := by
  simp only [Overwrites, Replaces, shaped_unboxed, reaches_unboxed]

theorem scalar_fresh (inlet : Inlet State) (decode : AnyValue → Except Fault Val) (state : State) :
    Fresh fun target => readScalar inlet decode target state := by
  intro first second
  unfold readScalar
  dsimp only
  split
  · exact ⟨rfl, fun failed => by cases failed⟩
  · split
    · exact ⟨rfl, fun failed => by cases failed⟩
    · exact ⟨rfl, fun _ => rfl⟩

theorem settle_fresh (inlet : Inlet State) (inner : Ty) (state : State) (content : Reading Val State) :
    Fresh fun target => settleOptional inlet inner target state content := by
  intro first second
  unfold settleOptional
  dsimp only
  cases content.outcome with
  | ok done => exact ⟨rfl, fun _ => rfl⟩
  | error fault =>
      dsimp only
      by_cases absorbable : fault.isAbsorbable = true
      · rw [if_pos absorbable, if_pos absorbable]
        split_ifs
        · split
          · exact ⟨rfl, fun _ => rfl⟩
          · exact ⟨rfl, fun failed => by cases failed⟩
        · exact ⟨rfl, fun _ => rfl⟩
      · rw [if_neg absorbable, if_neg absorbable]
        exact ⟨rfl, fun failed => by cases failed⟩

end Places

theorem shaped_slots {type : Ty} {types : List Ty} {targets : List Val}
    (shaped : schema.Shaped (.tuple (type :: types)) (.tuple targets)) :
    ∃ target others, targets = target :: others ∧ schema.Shaped type target ∧
      schema.Shaped (.tuple types) (.tuple others) := by
  cases shaped with
  | replaced replaced => cases replaced
  | tuple size shaped =>
      cases targets with
      | nil => cases size
      | cons target others =>
          refine ⟨target, others, rfl, shaped 0 type target rfl rfl, ?_⟩
          apply Shaped.tuple (Nat.succ.inj size)
          intro position other value known found
          exact shaped (position + 1) other value known found

section Level

variable (deeper : String → Val → Fields → Reading Val Fields)

/-- What is replaced is read without regard to what stood there. -/
theorem read_at_fresh (type : Ty) (replaced : type.isReplaced = true) {State : Type}
    (inlet : Inlet State) (state : State) :
    Fresh fun target => schema.readAt deeper type target inlet state := by
  cases type with
  | primitive scalar =>
      simp only [readAt]
      exact scalar_fresh inlet _ state
  | string =>
      simp only [readAt]
      exact scalar_fresh inlet _ state
  | textual name =>
      simp only [readAt]
      exact scalar_fresh inlet _ state
  | enumeration name =>
      simp only [readAt]
      exact scalar_fresh inlet _ state
  | record name => cases replaced
  | option inner =>
      simp only [readAt]
      split_ifs
      · exact fun _ _ => ⟨rfl, fun _ => rfl⟩
      · exact settle_fresh inlet inner state _
      · exact fun _ _ => ⟨rfl, fun _ => rfl⟩
  | sequence kind item =>
      simp only [readAt]
      intro first second
      cases inlet.openArray state with
      | mk outcome next =>
          cases outcome with
          | error fault => exact ⟨rfl, fun failed => by cases failed⟩
          | ok child => exact ⟨rfl, fun _ => rfl⟩
  | map kind key value =>
      simp only [readAt]
      intro first second
      cases schema.keyNaming? key with
      | some naming =>
          cases inlet.openStruct state with
          | mk outcome next =>
              cases outcome with
              | error fault => exact ⟨rfl, fun failed => by cases failed⟩
              | ok child => exact ⟨rfl, fun _ => rfl⟩
      | none =>
          cases inlet.openArray state with
          | mk outcome next =>
              cases outcome with
              | error fault => exact ⟨rfl, fun failed => by cases failed⟩
              | ok child => exact ⟨rfl, fun _ => rfl⟩
  | tuple types => cases replaced
  | boxed inner =>
      simp only [readAt]
      exact read_at_fresh inner replaced inlet state

mutual

/-- The recursion follows a type as far as it is read in place. -/
theorem read_at_overwrites
    (structures : ∀ name fields,
      schema.Overwrites (.record name) fun target => deeper name target fields)
    (type : Ty) {State : Type} (inlet : Inlet State) (state : State) :
    schema.Overwrites type fun target => schema.readAt deeper type target inlet state := by
  cases type with
  | record name =>
      simp only [readAt]
      cases inlet.openStruct state with
      | mk outcome next =>
          cases outcome with
          | error fault => exact .inl ⟨fault, fun _ _ => rfl⟩
          | ok child =>
              rcases structures name child with ⟨fault, failed⟩ | ⟨parts, source, log, replaces, read⟩
              · exact .inl ⟨fault, failed⟩
              · refine .inr ⟨parts, inlet.storeStruct source next, log, replaces, ?_⟩
                intro target shaped
                simp only [read target shaped]
  | tuple types =>
      simp only [readAt]
      cases inlet.openArray state with
      | mk outcome next =>
          cases outcome with
          | error fault => exact .inl ⟨fault, fun _ _ => rfl⟩
          | ok child =>
              rcases read_slots_overwrite structures types types.length 0 types rfl child with
                ⟨fault, failed⟩ | ⟨parts, source, log, replaces, read⟩
              · refine .inl ⟨fault, ?_⟩
                intro target shaped
                cases shaped with
                | replaced replaced => cases replaced
                | tuple size shaped => exact failed _ (.tuple size shaped)
              · refine .inr ⟨parts, inlet.storeArray source next, log, replaces, ?_⟩
                intro target shaped
                cases shaped with
                | replaced replaced => cases replaced
                | @tuple _ targets size shaped =>
                    obtain ⟨results, outcome, same⟩ := read targets (.tuple size shaped)
                    simp only [Val.slots, outcome]
                    exact congrArg (Reading.mk _ · _ _) (same [] rfl)
  | boxed inner =>
      simp only [readAt]
      have inside := read_at_overwrites structures inner inlet state
      rwa [← overwrites_unboxed] at inside ⊢
  | _ => exact fresh_overwrites rfl (read_at_fresh deeper _ rfl inlet state)

/-- The slots from a position on are overwritten where they lie in the whole tuple. -/
theorem read_slots_overwrite
    (structures : ∀ name fields,
      schema.Overwrites (.record name) fun target => deeper name target fields)
    (types : List Ty) (arity position : Nat) (all : List Ty) (rest : all.drop position = types)
    (slots : Slots) :
    (∃ fault, ∀ targets, schema.Shaped (.tuple types) (.tuple targets) →
      (schema.readSlots deeper arity position types targets slots).outcome = .error fault) ∨
    ∃ parts source log, (∀ part ∈ parts, schema.Replaces (.tuple all) part.1) ∧
      ∀ targets, schema.Shaped (.tuple types) (.tuple targets) →
        ∃ results,
          schema.readSlots deeper arity position types targets slots = ⟨.ok (), results, source, log⟩ ∧
            ∀ before, before.length = position →
              Val.tuple (before ++ results) = (Val.tuple (before ++ targets)).overwriteAll parts := by
  cases types with
  | nil =>
      simp only [readSlots]
      split_ifs
      · exact .inr ⟨[], slots, [], by simp, fun targets _ => ⟨targets, rfl, fun _ _ => rfl⟩⟩
      · exact .inl ⟨_, fun _ _ => rfl⟩
  | cons type types =>
      simp only [readSlots]
      split_ifs
      · exact .inl ⟨_, fun _ _ => rfl⟩
      · have known : all[position]? = some type := by
          rw [← List.head?_drop, rest]
          rfl
        have further : all.drop (position + 1) = types := by
          rw [← List.drop_drop, rest]
          rfl
        rcases read_at_overwrites structures type Slots.inlet slots with
          ⟨fault, failed⟩ | ⟨own, left, log, replaces, read⟩
        · refine .inl ⟨fault.atIndex position, ?_⟩
          intro targets shaped
          obtain ⟨target, others, rfl, targetShaped, -⟩ := shaped_slots shaped
          simp only [List.head?_cons, Option.getD_some, failed target targetShaped]
        · rcases read_slots_overwrite structures types arity (position + 1) all further left with
            ⟨fault, failed⟩ | ⟨parts, source, others, partsReplace, readOthers⟩
          · refine .inl ⟨fault, ?_⟩
            intro targets shaped
            obtain ⟨target, targets, rfl, targetShaped, shaped⟩ := shaped_slots shaped
            simp only [List.head?_cons, Option.getD_some, List.tail_cons, read target targetShaped,
              failed targets shaped]
          · refine .inr ⟨Val.beneath (.index position) own ++ parts, source, log ++ others, ?_, ?_⟩
            · intro part inside
              rcases List.mem_append.mp inside with inside | inside
              · obtain ⟨inner, innerInside, rfl⟩ := List.mem_map.mp inside
                obtain ⟨target, reaches, replaced⟩ := replaces inner innerInside
                exact ⟨target, ⟨all, type, rfl, known, reaches⟩, replaced⟩
              · exact partsReplace part inside
            · intro targets shaped
              obtain ⟨target, targets, rfl, targetShaped, shaped⟩ := shaped_slots shaped
              obtain ⟨results, outcome, same⟩ := readOthers targets shaped
              refine ⟨target.overwriteAll own :: results, ?_, ?_⟩
              · simp only [List.head?_cons, Option.getD_some, List.tail_cons,
                  read target targetShaped, outcome]
              · intro before size
                subst size
                have found : (Val.tuple (before ++ target :: targets)).part? (.index before.length) =
                    some target := by simp [Val.part?]
                have placed := same (before ++ [target.overwriteAll own]) (by simp)
                rw [List.append_assoc, List.append_assoc] at placed
                rw [Val.overwrite_all_append, Val.overwrite_all_beneath, found]
                dsimp only
                rw [Val.replacePart, List.set_append_right _ _ le_rfl, Nat.sub_self,
                  List.set_cons_zero]
                exact placed

end

theorem member_value_shaped {name : String} {path : Val.Path} {type : Ty}
    (leads : schema.Leads (.record name) path type) {owner : Val}
    (shaped : schema.Shaped (.record name) owner) {fallback : Val}
    (fallbackShaped : schema.Shaped type fallback) :
    schema.Shaped type (memberValue owner path fallback) := by
  unfold memberValue
  cases found : owner.get? path with
  | none => exact fallbackShaped
  | some inner => exact shaped_found leads shaped found

/-- What a reading overwrites of a part of a record, it overwrites of the record. -/
theorem placed_overwrites {name : String} {path : Val.Path} {type : Ty}
    (leads : schema.Leads (.record name) path type) {fallback : Val}
    (fallbackShaped : schema.Shaped type fallback) {read : Val → Reading Val Fields}
    (overwrites : schema.Overwrites type read) (change : Fault → Fault) :
    schema.Overwrites (.record name) fun owner =>
      let reading := read (memberValue owner path fallback)
      ⟨reading.outcome.mapError change, owner.set path reading.target, reading.source,
        reading.log⟩ := by
  have part (owner : Val) (shaped : schema.Shaped (.record name) owner) :=
    member_value_shaped leads shaped fallbackShaped
  rcases overwrites with ⟨fault, failed⟩ | ⟨parts, source, log, replaces, read⟩
  · refine .inl ⟨change fault, ?_⟩
    intro owner shaped
    dsimp only
    rw [failed _ (part owner shaped)]
    rfl
  · refine .inr ⟨(path.map Segment.field).foldr Val.beneath parts, source, log, ?_, ?_⟩
    · intro part inside
      obtain ⟨inner, innerInside, same⟩ := Val.mem_under inside
      obtain ⟨target, reaches, replaced⟩ := replaces inner innerInside
      rw [same]
      exact ⟨target, leads_reaches leads reaches, replaced⟩
    · intro owner shaped
      dsimp only
      rw [read _ (part owner shaped), ← Val.set_overwritten owner fallback]
      rfl

mutual

theorem read_member_overwrites (sound : schema.Sound)
    (structures : ∀ name fields,
      schema.Overwrites (.record name) fun target => deeper name target fields)
    {name : String} (member : Member) (memberSound : schema.MemberSound name member)
    (fields : Fields) :
    schema.Overwrites (.record name) fun owner => readMember schema deeper owner fields member := by
  cases member with
  | field head type =>
      simp only [readMember]
      exact placed_overwrites memberSound.2 (has_type_shaped (default_typed sound type))
        (read_at_overwrites deeper structures type (Fields.inlet head.name) fields) _
  | extend head base members =>
      obtain ⟨-, leads, membersSound⟩ := memberSound
      have extended := placed_overwrites leads (has_type_shaped (sound.initial base))
        (read_members_overwrites sound structures members membersSound fields) id
      have unchanged (outcome : Except Fault Unit) : outcome.mapError id = outcome := by
        cases outcome <;> rfl
      simp only [unchanged] at extended
      simp only [readMember]
      exact extended

/-- Members are read one after the other, each into what the ones before it have left. -/
theorem read_members_overwrites (sound : schema.Sound)
    (structures : ∀ name fields,
      schema.Overwrites (.record name) fun target => deeper name target fields)
    {name : String} (members : List Member) (membersSound : schema.MembersSound name members)
    (fields : Fields) :
    schema.Overwrites (.record name) fun owner => readMembers schema deeper owner fields members := by
  cases members with
  | nil =>
      simp only [readMembers]
      exact .inr ⟨[], fields, [], by simp, fun _ _ => rfl⟩
  | cons member rest =>
      simp only [readMembers]
      rcases read_member_overwrites sound structures member membersSound.1 fields with
        ⟨fault, failed⟩ | ⟨own, left, log, replaces, read⟩
      · refine .inl ⟨fault, ?_⟩
        intro owner shaped
        simp only [failed owner shaped]
      · have shapes {owner : Val} (shaped : schema.Shaped (.record name) owner) :=
          shaped_overwrite_all sound.distinct replaces shaped
        rcases read_members_overwrites sound structures rest membersSound.2 left with
          ⟨fault, failed⟩ | ⟨parts, source, others, partsReplace, readOthers⟩
        · refine .inl ⟨fault, ?_⟩
          intro owner shaped
          simp only [read owner shaped, Reading.after, failed _ (shapes shaped)]
        · refine .inr ⟨own ++ parts, source, log ++ others, ?_, ?_⟩
          · intro part inside
            exact (List.mem_append.mp inside).elim (replaces part) (partsReplace part)
          · intro owner shaped
            simp only [read owner shaped, Reading.after, readOthers _ (shapes shaped),
              Val.overwrite_all_append]

end

end Level

theorem read_structure_overwrites (sound : schema.Sound) (levels : Nat) (name : String)
    (fields : Fields) :
    schema.Overwrites (.record name) fun target => schema.readStructure levels name target fields := by
  induction levels generalizing name fields with
  | zero => exact .inr ⟨[], fields, [], by simp, fun _ _ => rfl⟩
  | succ levels induction =>
      simp only [readStructure]
      cases declared : (schema.structureInfo name).members with
      | error fault => exact .inl ⟨fault, fun _ _ => rfl⟩
      | ok members =>
          exact read_members_overwrites _ sound induction members (members_sound sound declared)
            fields

theorem object_overwrites (sound : schema.Sound) (name : String) (fields : Fields) :
    schema.Overwrites (.record name) fun target => schema.readObject name target fields :=
  read_structure_overwrites sound _ name fields

/-- Reading once more into what has been read changes nothing. -/
theorem Overwrites.again (sound : schema.Sound) {type : Ty} {State : Type}
    {read : Val → Reading Val State} (overwrites : schema.Overwrites type read) {target : Val}
    (shaped : schema.Shaped type target) (outcome : (read target).outcome = .ok ()) :
    schema.Shaped type (read target).target ∧ read (read target).target = read target := by
  rcases overwrites with ⟨fault, failed⟩ | ⟨parts, source, log, replaces, read⟩
  · rw [failed target shaped] at outcome
    cases outcome
  · have reshaped := shaped_overwrite_all sound.distinct replaces shaped
    have apart : ∀ first ∈ parts, ∀ second ∈ parts,
        second.1 = first.1 ∨ Trail.Apart first.1 second.1 := fun first firstInside second inside =>
      replaces_apart sound.distinct (replaces first firstInside) (replaces second inside)
    rw [read target shaped, read _ reshaped, Val.overwrite_all_again apart]
    exact ⟨reshaped, rfl⟩

end Schema

end Marshal
