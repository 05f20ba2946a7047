import Marshal.Proofs.Reading.Portions

/-!
# The target has no say

Which places of a target are overwritten follows from its type: whatever is replaced where plain
members, slots and boxes lead. What is put there follows from the document. So nothing that a target
has held before shows in the result, except in the fields that are skipped.
-/

namespace Marshal

namespace Step

variable {Fits : Val → Prop} {places others : Trail → Prop} {step further : Step Val}

/-- That a step fails alike for all values of a kind, or overwrites certain places of each, with the
same parts. -/
def Settles (Fits : Val → Prop) (places : Trail → Prop) (step : Step Val) : Prop :=
  (∃ fault, ∀ target, Fits target → (step target).1 = .error fault) ∨
    ∃ parts : List (Trail × Val), (∀ trail, places trail ↔ ∃ part ∈ parts, part.1 = trail) ∧
      ∀ target, Fits target → step target = (.ok (), target.overwriteAll parts)

/-- That overwriting a place leaves values of their kind. -/
def Stays (Fits : Val → Prop) (places : Trail → Prop) : Prop :=
  ∀ trail part target, places trail → Fits target → Fits (target.overwrite trail part)

theorem Stays.all (stays : Stays Fits places) {parts : List (Trail × Val)}
    (inside : ∀ part ∈ parts, places part.1) {target : Val} (fits : Fits target) :
    Fits (target.overwriteAll parts) := by
  induction parts generalizing target with
  | nil => exact fits
  | cons part parts induction =>
      rw [List.forall_mem_cons] at inside
      exact induction inside.2 (stays part.1 part.2 target inside.1 fits)

theorem settles_congr (same : ∀ trail, places trail ↔ others trail)
    (settles : step.Settles Fits places) : step.Settles Fits others := by
  simpa only [Settles, same] using settles

theorem settles_of_eq (same : ∀ target, Fits target → step target = further target)
    (settles : further.Settles Fits places) : step.Settles Fits places := by
  rcases settles with ⟨fault, failed⟩ | ⟨parts, exactly, filled⟩
  · exact .inl ⟨fault, fun target fits => by rw [same target fits, failed target fits]⟩
  · exact .inr ⟨parts, exactly, fun target fits => by rw [same target fits, filled target fits]⟩

theorem settles_done : done.Settles Fits fun _ => False :=
  .inr ⟨[], by simp, fun _ _ => rfl⟩

theorem Settles.map_fault (settles : step.Settles Fits places) (change : Fault → Fault) :
    (step.mapFault change).Settles Fits places := by
  rcases settles with ⟨fault, failed⟩ | ⟨parts, exactly, filled⟩
  · refine .inl ⟨change fault, fun target fits => ?_⟩
    rw [map_fault_eq, failed target fits]
    rfl
  · refine .inr ⟨parts, exactly, fun target fits => ?_⟩
    rw [map_fault_eq, filled target fits]
    rfl

/-- The second step finds what the first has left to be of the same kind. -/
theorem Settles.and_then (settles : step.Settles Fits places) (stays : Stays Fits places)
    (next : further.Settles Fits others) :
    (step.andThen further).Settles Fits fun trail => places trail ∨ others trail := by
  rcases settles with ⟨fault, failed⟩ | ⟨parts, exactly, filled⟩
  · refine .inl ⟨fault, fun target fits => ?_⟩
    have first := failed target fits
    rcases run : step target with ⟨_ | _, left⟩
    · rw [run] at first
      cases first
      rw [andThen, run]
    · rw [run] at first
      cases first
  · have left {target : Val} (fits : Fits target) : Fits (target.overwriteAll parts) :=
      stays.all (fun part inside => (exactly part.1).mpr ⟨part, inside, rfl⟩) fits
    rcases next with ⟨fault, failed⟩ | ⟨more, moreExactly, moreFilled⟩
    · refine .inl ⟨fault, fun target fits => ?_⟩
      rw [and_then_goes_on (filled target fits)]
      exact failed _ (left fits)
    · refine .inr ⟨parts ++ more, fun trail => ?_, fun target fits => ?_⟩
      · simp only [exactly, moreExactly, List.mem_append, or_and_right, exists_or]
      · rw [and_then_goes_on (filled target fits), moreFilled _ (left fits), Val.overwrite_all_append]

/-- Where the last step always fails, all of them fail alike. -/
theorem Settles.and_then_fail (settles : step.Settles Fits places) (fault : Fault) :
    (step.andThen (fail fault)).Settles Fits others := by
  rcases settles with ⟨own, failed⟩ | ⟨parts, -, filled⟩
  · refine .inl ⟨own, fun target fits => ?_⟩
    have first := failed target fits
    rcases run : step target with ⟨_ | _, left⟩
    · rw [run] at first
      cases first
      rw [andThen, run]
    · rw [run] at first
      cases first
  · refine .inl ⟨fault, fun target fits => ?_⟩
    rw [and_then_goes_on (filled target fits)]
    rfl

/-- What a step settles of a part lies below the part's trail in the whole. -/
theorem settles_filled {Inner : Val → Prop} {portion : Portion}
    (settles : portion.step.Settles Inner places)
    (inner : ∀ target, Fits target → Inner ((target.at? portion.trail).getD portion.fallback)) :
    portion.filled.Settles Fits fun trail => ∃ rest, places rest ∧ trail = portion.trail ++ rest := by
  rcases settles with ⟨fault, failed⟩ | ⟨parts, exactly, filled⟩
  · exact .inl ⟨fault, fun target fits => failed _ (inner target fits)⟩
  · refine .inr ⟨portion.trail.foldr Val.beneath parts, fun trail => ?_, fun target fits => ?_⟩
    · simp only [exactly]
      constructor
      · rintro ⟨rest, ⟨part, inside, rfl⟩, rfl⟩
        exact ⟨_, Val.mem_foldr_beneath portion.trail inside, rfl⟩
      · rintro ⟨part, inside, rfl⟩
        obtain ⟨own, ownInside, same⟩ := Val.mem_under inside
        exact ⟨own.1, ⟨own, ownInside, rfl⟩, same⟩
    · simp only [Portion.filled, filled _ (inner target fits), Val.overwritten_under]

/-- A step that goes on leaves a value of the kind that it has started from. -/
theorem Settles.keeps (settles : step.Settles Fits places) (stays : Stays Fits places)
    {target result : Val} (fits : Fits target) (done : step target = (.ok (), result)) :
    Fits result := by
  rcases settles with ⟨fault, failed⟩ | ⟨parts, exactly, filled⟩
  · have first := failed target fits
    rw [done] at first
    cases first
  · obtain ⟨-, rfl⟩ := Prod.mk.inj (done.symm.trans (filled target fits))
    exact stays.all (fun part inside => (exactly part.1).mpr ⟨part, inside, rfl⟩) fits

theorem settles_all {Item : Type} {items : List Item} {portion : Item → Portion}
    {each : Item → Trail → Prop}
    (settles : ∀ item ∈ items, (portion item).filled.Settles Fits (each item))
    (stays : ∀ item ∈ items, Stays Fits (each item)) :
    (all ((items.map portion).map Portion.filled)).Settles Fits fun trail =>
      ∃ item ∈ items, each item trail := by
  induction items with
  | nil => exact settles_congr (by simp) settles_done
  | cons item items induction =>
      rw [List.forall_mem_cons] at settles stays
      refine settles_congr ?_ (settles.1.and_then stays.1 (induction settles.2 stays.2))
      simp

end Step

namespace Schema

/-- The places of a type's values that are read: those of its plain members, slots and contents that
are replaced where they are read. -/
inductive Reads (schema : Schema) : Ty → Trail → Prop
  | whole {type : Ty} (replaced : type.isReplaced = true) : Reads schema type []
  | member {name : String} {leaf : Leaf} {trail : Trail} (inside : leaf ∈ schema.leaves name)
      (reads : Reads schema leaf.type trail) :
      Reads schema (.record name) (leaf.path.map Segment.field ++ trail)
  | slot {types : List Ty} {position : Nat} {type : Ty} {trail : Trail}
      (known : types[position]? = some type) (reads : Reads schema type trail) :
      Reads schema (.tuple types) (.index position :: trail)
  | boxed {inner : Ty} {trail : Trail} (reads : Reads schema inner trail) :
      Reads schema (.boxed inner) trail

/-- That a place of a type's values lies apart from all that are read, as a field that is skipped
does. -/
def Skips (schema : Schema) (type : Ty) (trail : Trail) : Prop :=
  ∀ read, schema.Reads type read → read.Apart trail

variable {schema : Schema} {type inner : Ty} {name : String} {types : List Ty} {trail : Trail}

section Places

theorem reads_replaced (replaced : type.isReplaced = true) :
    schema.Reads type trail ↔ trail = [] := by
  constructor
  · intro reads
    induction reads with
    | whole => rfl
    | member => cases replaced
    | slot => cases replaced
    | boxed _ induction => exact induction replaced
  · rintro rfl
    exact .whole replaced

theorem reads_record : schema.Reads (.record name) trail ↔
    ∃ leaf ∈ schema.leaves name, ∃ rest, schema.Reads leaf.type rest ∧
      trail = leaf.path.map Segment.field ++ rest := by
  constructor
  · intro reads
    cases reads with
    | whole replaced => cases replaced
    | member inside reads => exact ⟨_, inside, _, reads, rfl⟩
  · rintro ⟨leaf, inside, rest, reads, rfl⟩
    exact .member inside reads

theorem reads_tuple : schema.Reads (.tuple types) trail ↔
    ∃ (position : Nat) (type : Ty), types[position]? = some type ∧ ∃ rest, schema.Reads type rest ∧
      trail = .index position :: rest := by
  constructor
  · intro reads
    cases reads with
    | whole replaced => cases replaced
    | slot known reads => exact ⟨_, _, known, _, reads, rfl⟩
  · rintro ⟨position, type, known, rest, reads, rfl⟩
    exact .slot known reads

theorem reads_boxed : schema.Reads (.boxed inner) trail ↔ schema.Reads inner trail := by
  constructor
  · intro reads
    cases reads with
    | whole replaced => exact .whole replaced
    | boxed reads => exact reads
  · exact .boxed

theorem reads_replaces (sound : schema.Sound) (reads : schema.Reads type trail) :
    schema.Replaces type trail := by
  induction reads with
  | @whole type replaced => exact ⟨type, rfl, replaced⟩
  | member inside _ induction =>
      obtain ⟨target, reaches, replaced⟩ := induction
      exact ⟨target, leads_reaches (leaf_leads sound inside).2 reaches, replaced⟩
  | slot known _ induction =>
      obtain ⟨target, reaches, replaced⟩ := induction
      exact ⟨target, ⟨_, _, rfl, known, reaches⟩, replaced⟩
  | boxed _ induction =>
      obtain ⟨target, reaches, replaced⟩ := induction
      rw [← reaches_unboxed] at reaches
      exact ⟨target, (reaches_unboxed (.boxed _) _ _).mp reaches, replaced⟩

/-- A field that no member's path has anything to do with is skipped. -/
theorem skips_field {path : Val.Path}
    (apart : ∀ leaf ∈ schema.leaves name, Val.Apart leaf.path path) :
    schema.Skips (.record name) (path.map Segment.field) := by
  intro read reads
  obtain ⟨leaf, inside, rest, -, rfl⟩ := reads_record.mp reads
  exact (Val.apart_fields.mpr (apart leaf inside)).append rest

theorem skips_slot {position : Nat} (known : types[position]? = some type)
    (skips : schema.Skips type trail) : schema.Skips (.tuple types) (.index position :: trail) := by
  intro read reads
  obtain ⟨other, otherType, otherKnown, rest, reads, rfl⟩ := reads_tuple.mp reads
  intro same
  cases same
  rw [known] at otherKnown
  cases otherKnown
  exact skips rest reads

theorem skips_boxed (skips : schema.Skips inner trail) : schema.Skips (.boxed inner) trail :=
  fun read reads => skips read (reads_boxed.mp reads)

theorem reads_stay (sound : schema.Sound) :
    Step.Stays (schema.Formed type) (schema.Reads type) :=
  fun _ part _ reads formed => formed.overwritten sound.distinct (reads_replaces sound reads) part

end Places

section Filling

variable {bound : Nat} {State : Type} {site : Site State} {state : State}

theorem replaced_settles (replaced : type.isReplaced = true) (inlet : Inlet State) (state : State) :
    (schema.fill type inlet state).Settles (schema.Formed type) (schema.Reads type) := by
  have fresh : Fresh fun target => schema.read type target inlet state :=
    read_at_fresh schema.readObject type replaced inlet state
  cases outcome : (schema.read type .absent inlet state).outcome with
  | error fault => exact .inl ⟨fault, fun target _ => (fresh target .absent).1.trans outcome⟩
  | ok done =>
      refine .inr ⟨[([], (schema.read type .absent inlet state).target)], fun trail => ?_, ?_⟩
      · rw [reads_replaced replaced]
        simp [eq_comm]
      · intro target _
        have same : schema.read type target inlet state = schema.read type .absent inlet state :=
          (fresh .absent target).2 outcome
        rw [fill, same, Reading.made, outcome]
        rfl

theorem refused_settles {places : Trail → Prop} {fault : Fault}
    (refused : ∀ target, (schema.read type target site.inlet state).outcome = .error fault) :
    (schema.fill type site.inlet state).Settles (schema.Formed type) places :=
  .inl ⟨fault, fun target _ => refused target⟩

theorem settles_boxed (settles : (schema.fill inner site.inlet state).Settles (schema.Formed inner)
    (schema.Reads inner)) :
    (schema.fill (.boxed inner) site.inlet state).Settles (schema.Formed (.boxed inner))
      (schema.Reads (.boxed inner)) := by
  have same : schema.fill (.boxed inner) site.inlet state = schema.fill inner site.inlet state := by
    funext target
    rw [fill, fill, read, read, readAt]
  simpa only [same, Step.Settles, formed_boxed, reads_boxed] using settles

theorem slot_settles {nodes : List Node} {position : Nat} (known : types[position]? = some type)
    (settles : (schema.fill type Slots.inlet ⟨nodes, position⟩).Settles (schema.Formed type)
      (schema.Reads type)) :
    (schema.slotPortion nodes (type, position)).filled.Settles (schema.Formed (.tuple types))
      fun trail => ∃ rest, schema.Reads type rest ∧ trail = [.index position] ++ rest := by
  apply Step.settles_filled (settles.map_fault _)
  exact fun target formed => formed.filled (slot_reaches known) _

theorem slot_stays (sound : schema.Sound) {position : Nat} (known : types[position]? = some type) :
    Step.Stays (schema.Formed (.tuple types)) fun trail =>
      ∃ rest, schema.Reads type rest ∧ trail = [.index position] ++ rest := by
  rintro trail part target ⟨rest, reads, rfl⟩ formed
  exact reads_stay sound _ part target (.slot known reads) formed

/-- The slots that there are elements for settle what they read, and only a tuple that has an element
for each slot is read at all. -/
theorem tuple_settles (sound : schema.Sound) {nodes : List Node} {next : State}
    (opened : site.inlet.openArray state = (.ok ⟨nodes, 0⟩, next))
    (slots : ∀ type ∈ types, ∀ position,
      (schema.fill type Slots.inlet ⟨nodes, position⟩).Settles (schema.Formed type)
        (schema.Reads type)) :
    (schema.fill (.tuple types) site.inlet state).Settles (schema.Formed (.tuple types))
      (schema.Reads (.tuple types)) := by
  let portions := Step.all (((slotsFrom types nodes.length 0).map (schema.slotPortion nodes)).map
    Portion.filled)
  have read (target : Val) (formed : schema.Formed (.tuple types) target) :
      schema.fill (.tuple types) site.inlet state target =
        portions.andThen (tupleEnd types.length nodes.length) target := by
    obtain ⟨targets, rfl, fits⟩ := formed.tuple
    exact read_tuple_filled fits opened
  refine Step.settles_of_eq read ?_
  have filled : portions.Settles (schema.Formed (.tuple types)) fun trail =>
      ∃ slot ∈ slotsFrom types nodes.length 0, ∃ rest, schema.Reads slot.1 rest ∧
        trail = [.index slot.2] ++ rest := by
    apply Step.settles_all
    · rintro ⟨type, position⟩ inside
      have known := (mem_slots_from.mp inside).1
      exact slot_settles known (slots type (List.mem_of_getElem? known) position)
    · rintro ⟨type, position⟩ inside
      exact slot_stays sound (mem_slots_from.mp inside).1
  unfold tupleEnd
  split_ifs with fewer more
  · exact filled.and_then_fail _
  · exact filled.and_then_fail _
  · rw [Step.and_then_done]
    refine Step.settles_congr (fun trail => ?_) filled
    rw [reads_tuple]
    constructor
    · rintro ⟨⟨type, position⟩, inside, rest, reads, rfl⟩
      exact ⟨position, type, (mem_slots_from.mp inside).1, rest, reads, rfl⟩
    · rintro ⟨position, type, known, rest, reads, rfl⟩
      obtain ⟨within, -⟩ := List.getElem?_eq_some_iff.mp known
      exact ⟨(type, position), mem_slots_from.mpr ⟨known, by omega⟩, rest, reads, rfl⟩

/-- What is read of a plain member lies below its path. -/
theorem member_settles (sound : schema.Sound) {leaf : Leaf} (inside : leaf ∈ schema.leaves name)
    {fields : Fields}
    (settles : (schema.fill leaf.type (Fields.inlet leaf.name) fields).Settles
      (schema.Formed leaf.type) (schema.Reads leaf.type)) :
    (schema.memberPortion fields leaf).filled.Settles (schema.Formed (.record name)) fun trail =>
      ∃ rest, schema.Reads leaf.type rest ∧ trail = leaf.path.map Segment.field ++ rest := by
  apply Step.settles_filled (settles.map_fault _)
  exact fun target formed => formed.filled (leaf_reaches sound inside) _

theorem member_stays (sound : schema.Sound) {leaf : Leaf} (inside : leaf ∈ schema.leaves name) :
    Step.Stays (schema.Formed (.record name)) fun trail =>
      ∃ rest, schema.Reads leaf.type rest ∧ trail = leaf.path.map Segment.field ++ rest := by
  rintro trail part target ⟨rest, reads, rfl⟩ formed
  exact reads_stay sound _ part target (.member inside reads) formed

theorem object_settles (sound : schema.Sound) (assembled : schema.Assembled) {fields : Fields}
    (members : ∀ leaf ∈ schema.leaves name,
      (schema.fill leaf.type (Fields.inlet leaf.name) fields).Settles (schema.Formed leaf.type)
        (schema.Reads leaf.type)) :
    Step.Settles (schema.Formed (.record name)) (schema.Reads (.record name)) fun target =>
      (schema.readObject name target fields).made := by
  cases declared : (schema.structureInfo name).members with
  | error fault =>
      refine .inl ⟨fault, fun target _ => ?_⟩
      dsimp only
      rw [read_object_eq assembled, declared]
      rfl
  | ok known =>
      refine Step.settles_of_eq (fun target formed =>
        read_object_filled sound assembled declared formed fields) ?_
      refine Step.settles_congr (fun trail => reads_record.symm) (Step.settles_all ?_ ?_)
      · exact fun leaf inside => member_settles sound inside (members leaf inside)
      · exact fun leaf inside => member_stays sound inside

/-- That structures in documents up to a depth settle what they read. -/
def StructuresSettle (schema : Schema) (bound : Nat) : Prop :=
  ∀ name fields, (Node.struct fields).depth ≤ bound →
    Step.Settles (schema.Formed (.record name)) (schema.Reads (.record name)) fun target =>
      (schema.readObject name target fields).made

mutual

/-- The recursion follows a type as far as it is read in place; what shallower structures settle is
given. -/
theorem fill_settles (sound : schema.Sound) (assembled : schema.Assembled)
    (structures : schema.StructuresSettle bound)
    (type : Ty) {State : Type} {site : Site State} (inside : site.FindsInside) {state : State}
    (shallow : (site.whole state).depth ≤ bound + 1) :
    (schema.fill type site.inlet state).Settles (schema.Formed type) (schema.Reads type) := by
  cases type with
  | record name =>
      rcases site.structs_cases state with ⟨fault, opened, -⟩ | ⟨child, opened, found⟩
      · exact refused_settles fun target => by rw [read, readAt, opened]
      · have below := inside found
        have same : schema.fill (.record name) site.inlet state = fun target =>
            (schema.readObject name target child).made := by
          funext target
          rw [fill, read, readAt, opened]
          rfl
        rw [same]
        exact structures name child (by omega)
  | tuple types =>
      rcases site.arrays_cases state with ⟨fault, opened, -⟩ | ⟨items, cursor, opened, found⟩
      · exact refused_settles fun target => by rw [read, readAt, opened]
      · have below := inside found
        exact tuple_settles sound opened (slots_settle sound assembled structures types
          (below.le.trans shallow))
  | boxed inner =>
      exact settles_boxed (fill_settles sound assembled structures inner inside shallow)
  | _ => exact replaced_settles rfl site.inlet state

theorem slots_settle (sound : schema.Sound) (assembled : schema.Assembled)
    (structures : schema.StructuresSettle bound)
    (types : List Ty) {nodes : List Node} {cursor : Nat}
    (shallow : (Node.array nodes cursor).depth ≤ bound + 1) :
    ∀ type ∈ types, ∀ position, (schema.fill type Slots.inlet ⟨nodes, position⟩).Settles
      (schema.Formed type) (schema.Reads type) := by
  cases types with
  | nil => simp
  | cons type types =>
      rw [List.forall_mem_cons]
      have own (position : Nat) : (schema.fill type Slots.inlet ⟨nodes, position⟩).Settles
          (schema.Formed type) (schema.Reads type) :=
        fill_settles sound assembled structures type Slots.site_finds_inside shallow
      exact ⟨own, slots_settle sound assembled structures types shallow⟩

end

/-- The induction is on how deep the document may be. -/
theorem structures_settle (sound : schema.Sound) (assembled : schema.Assembled) (bound : Nat) :
    schema.StructuresSettle bound := by
  induction bound with
  | zero =>
      intro name fields shallow
      cases shallow
  | succ bound induction =>
      intro name fields shallow
      apply object_settles sound assembled
      intro leaf inside
      exact fill_settles sound assembled induction leaf.type (Fields.site_finds_inside leaf.name)
        shallow

theorem read_settles (sound : schema.Sound) (assembled : schema.Assembled) (type : Ty)
    (inside : site.FindsInside) (state : State) :
    (schema.fill type site.inlet state).Settles (schema.Formed type) (schema.Reads type) :=
  fill_settles sound assembled (structures_settle sound assembled _) type inside (Nat.le_succ _)

end Filling

/-- That two readings of one place, into different targets, end alike: with the same outcome and, if
they succeed, with the same in all that is read, while what is skipped is as it was in each target. -/
structure EndAlike {State : Type} (schema : Schema) (type : Ty) (first second : Val)
    (left right : Reading Val State) : Prop where
  outcome : left.outcome = right.outcome
  read : left.outcome = .ok () → ∀ trail, schema.Reads type trail →
    ∃ part, left.target.at? trail = some part ∧ right.target.at? trail = some part
  skipped : left.outcome = .ok () → ∀ trail, schema.Skips type trail →
    left.target.at? trail = first.at? trail ∧ right.target.at? trail = second.at? trail

theorem settles_end_alike {State : Type} (sound : schema.Sound) {first second : Val}
    {left right : Reading Val State} {step : Step Val}
    (settles : step.Settles (schema.Formed type) (schema.Reads type))
    (leftRead : step first = left.made) (rightRead : step second = right.made)
    (firstTyped : schema.HasType type first) (secondTyped : schema.HasType type second) :
    schema.EndAlike type first second left right := by
  have firstFormed := typed_formed firstTyped
  have secondFormed := typed_formed secondTyped
  rcases settles with ⟨fault, failed⟩ | ⟨parts, exactly, filled⟩
  · have leftFailed := failed first firstFormed
    have rightFailed := failed second secondFormed
    rw [leftRead, Reading.made] at leftFailed
    rw [rightRead, Reading.made] at rightFailed
    dsimp only at leftFailed rightFailed
    refine ⟨leftFailed.trans rightFailed.symm, ?_, ?_⟩ <;>
      · intro done
        rw [leftFailed] at done
        cases done
  · obtain ⟨leftDone, leftTarget⟩ := Prod.mk.inj (leftRead.symm.trans (filled first firstFormed))
    obtain ⟨rightDone, rightTarget⟩ := Prod.mk.inj (rightRead.symm.trans (filled second secondFormed))
    have places (part : Trail × Val) (inside : part ∈ parts) : schema.Reads type part.1 :=
      (exactly part.1).mpr ⟨part, inside, rfl⟩
    refine ⟨leftDone.trans rightDone.symm, fun _ trail reads => ?_, fun _ trail skips => ?_⟩
    · have replaces := reads_replaces sound reads
      have apart (part : Trail × Val) (inside : part ∈ parts) :
          part.1 = trail ∨ Trail.Apart part.1 trail :=
        (replaces_apart sound.distinct replaces (reads_replaces sound (places part inside))).imp_right
          Trail.Apart.symm
      obtain ⟨target, reaches, -⟩ := replaces
      obtain ⟨part, settled⟩ := Val.at_overwrite_all_own ((exactly trail).mp reads) apart
      rw [leftTarget, rightTarget]
      exact ⟨part, settled first (firstFormed.entire trail target reaches),
        settled second (secondFormed.entire trail target reaches)⟩
    · rw [leftTarget, rightTarget]
      have apart (part : Trail × Val) (inside : part ∈ parts) : Trail.Apart part.1 trail :=
        skips part.1 (places part inside)
      exact ⟨Val.at_overwrite_all_apart apart first, Val.at_overwrite_all_apart apart second⟩

/-- Reading does not depend on what the target has held: from one document, two values of a type are
read into with the same outcome, down to the trail of a fault. What is read, wherever plain members,
slots and boxes lead to it, is the same in both results; all that lies apart from it, which is what
structures skip, is in each as it was in its own target. -/
theorem targets_do_not_matter (sound : schema.Sound) (assembled : schema.Assembled)
    {first second : Val} (firstTyped : schema.HasType type first)
    (secondTyped : schema.HasType type second) :
    (∀ name fields, schema.EndAlike type first second (schema.readNamed type first name fields)
      (schema.readNamed type second name fields)) ∧
    (∀ slots, schema.EndAlike type first second (schema.readNext type first slots)
      (schema.readNext type second slots)) ∧
    ∀ name fields, type = .record name →
      schema.EndAlike type first second (schema.readObject name first fields)
        (schema.readObject name second fields) := by
  refine ⟨?_, ?_, ?_⟩
  · intro name fields
    exact settles_end_alike sound
      (read_settles sound assembled type (Fields.site_finds_inside name) fields) rfl rfl firstTyped
      secondTyped
  · intro slots
    exact settles_end_alike sound (read_settles sound assembled type Slots.site_finds_inside slots)
      rfl rfl firstTyped secondTyped
  · rintro name fields rfl
    exact settles_end_alike sound (structures_settle sound assembled _ name fields le_rfl) rfl rfl
      firstTyped secondTyped

/-- A day and a stop, which lies in a box and skips its visits, read into two such pairs. -/
theorem targets_do_not_matter_day :
    let day : Ty := .tuple [.string, .boxed (.record "Stop")]
    let first := Val.tuple [.text "Sunday", Route.stop "North" [(.text "child", .int 4)] .absent 3]
    let second := Val.tuple
      [.text "", Route.stop "" [] (.present (Route.stop "South" [] .absent 1)) 7]
    let document : Slots :=
      ⟨[.array [.text "Monday", .struct [("name", .text "East"), ("fares", .struct [])]] 0], 0⟩
    let left := Route.schema.readNext day first document
    let right := Route.schema.readNext day second document
    Route.schema.Sound ∧ Route.schema.Assembled ∧ Route.schema.HasType day first ∧
      Route.schema.HasType day second ∧ left.outcome = .ok () ∧ left.outcome = right.outcome ∧
      (∃ fares, left.target.at? [.index 1, .field "fares"] = some fares ∧
        right.target.at? [.index 1, .field "fares"] = some fares) ∧
      left.target.at? [.index 1, .field "visits"] = some (.int 3) ∧
      right.target.at? [.index 1, .field "visits"] = some (.int 7) := by
  intro day first second document left right
  have fares : Route.schema.HasType Route.fares (.map [(.text "child", .int 4)]) :=
    .map (by simpa using .string _) (by simp [Val.equal]) (by simpa using .int (by decide)) (by simp)
  have firstTyped : Route.schema.HasType day first :=
    .tuple (.cons (.string _) (.cons (.boxed (Route.stop_typed fares .absent (by decide))) .nil))
  have south : Route.schema.HasType (.record "Stop") (Route.stop "South" [] .absent 1) :=
    Route.stop_typed Route.no_fares .absent (by decide)
  have secondTyped : Route.schema.HasType day second :=
    .tuple (.cons (.string _) (.cons (.boxed (Route.stop_typed Route.no_fares
      (.present (.boxed south)) (by decide))) .nil))
  obtain ⟨-, next, -⟩ := targets_do_not_matter Route.sound Route.assembled firstTyped secondTyped
  have alike := next document
  have done : left.outcome = .ok () := by decide +kernel
  have leaves : Route.schema.leaves "Stop" = [⟨"name", ["name"], .string⟩,
    ⟨"fares", ["fares"], Route.fares⟩, ⟨"next", ["next"], Route.next⟩] := rfl
  have reads : Route.schema.Reads day [.index 1, .field "fares"] := by
    have inside : ⟨"fares", ["fares"], Route.fares⟩ ∈ Route.schema.leaves "Stop" := by simp [leaves]
    exact .slot rfl (.boxed (.member inside (.whole rfl)))
  have skips : Route.schema.Skips day [.index 1, .field "visits"] := by
    have apart : ∀ leaf ∈ Route.schema.leaves "Stop", Val.Apart leaf.path ["visits"] := by
      simp [leaves, Val.Apart]
    exact skips_slot rfl (skips_boxed (skips_field apart))
  obtain ⟨leftKept, rightKept⟩ := alike.skipped done _ skips
  exact ⟨Route.sound, Route.assembled, firstTyped, secondTyped, done, alike.outcome,
    alike.read done _ reads, leftKept, rightKept⟩

end Schema

end Marshal
