import Marshal.Proofs.Reading.Interrupted

/-!
# What a failed reading leaves behind

A reading that fails has changed what it had read before it failed. Structures and tuples are read in
place: the members and slots before the failing one have been read, and all others are as they were.
Sequences and maps are emptied once their container is open, so they hold what has been read since.
Everything else is replaced only by what has been read, and keeps what it held.
-/

namespace Marshal

/-- That a part of a target has been read: what a reading has made of the part is there instead. -/
def PartRead {State : Type} (read : Val → Reading Val State) (trail : Trail) (target result : Val) :
    Prop :=
  ∃ old new, target.at? trail = some old ∧ (read old).made = (.ok (), new) ∧
    result.at? trail = some new

/-- A portion that is left with an outcome at its own place has been left with one of its step. -/
theorem Portion.Leaves.located {trail : Trail} {fallback : Val} {change : Fault → Fault}
    {step : Step Val} {outcome : Except Fault Unit} {first second : Val}
    (leaves : Portion.Leaves ⟨trail, fallback, step.mapFault change⟩ outcome first second) :
    ∃ own old new, outcome = own.mapError change ∧ first.at? trail = some old ∧
      step old = (own, new) ∧ second.at? trail = some new := by
  obtain ⟨old, new, found, made, left⟩ := leaves
  dsimp only at made
  rw [Step.map_fault_eq] at made
  cases made
  exact ⟨_, old, _, rfl, found, rfl, left⟩

theorem Portion.Leaves.read {trail : Trail} {fallback : Val} {change : Fault → Fault} {State : Type}
    {reading : Val → Reading Val State} {target result : Val}
    (leaves : Portion.Leaves ⟨trail, fallback, Step.mapFault change fun old => (reading old).made⟩
      (.ok ()) target result) : PartRead reading trail target result := by
  obtain ⟨own, old, new, same, found, made, left⟩ := leaves.located
  cases own with
  | error fault => cases same
  | ok done => exact ⟨old, new, found, made, left⟩

namespace Schema

/-- The kind of node that a type is read from inside of, if it is. -/
def container (schema : Schema) : Ty → Option NodeKind
  | .record _ => some .struct
  | .sequence _ _ | .tuple _ => some .array
  | .map _ key _ => if (schema.keyNaming? key).isSome then some .struct else some .array
  | .boxed inner => schema.container inner
  | .primitive _ | .string | .textual _ | .enumeration _ | .option _ => none

/-- That reading a type opens a node. -/
def Opens (schema : Schema) (type : Ty) (node? : Option Node) : Prop :=
  ∃ node, node? = some node ∧ schema.container type = some node.kind

/-- Reads an element of an array as an entry of a map. -/
def readPair (schema : Schema) (key value : Ty) : Slots → Reading (Val × Val) Slots :=
  readRecord (schema.readNamed key (schema.default key) keyField)
    (schema.readNamed value (schema.default value) valueField)

/-- That the slots of a tuple have been read up to a position. -/
def SlotsRead (schema : Schema) (types : List Ty) (nodes : List Node) (stop : Nat)
    (target result : Val) : Prop :=
  ∀ position type, position < stop → types[position]? = some type →
    PartRead (fun old => schema.readNext type old ⟨nodes, position⟩) [.index position] target result

/-- What a failed reading leaves of its target, by the type that is read and the node that is found. -/
inductive Residue (schema : Schema) : Ty → Option Node → Val → Fault → Val → Prop
  /-- Where nothing has been open, nothing has changed. -/
  | closed {type : Ty} {node? : Option Node} {target : Val} {fault : Fault}
      (closed : ¬ schema.Opens type node?) : Residue schema type node? target fault target
  | undeclared {name : String} {fields : Fields} {target : Val} {fault : Fault}
      (broken : (schema.structureInfo name).members = .error fault) :
      Residue schema (.record name) (some (.struct fields)) target fault target
  /-- A structure fails with one of its plain members. -/
  | member {name : String} {fields : Fields} {before after : List Leaf} {leaf : Leaf}
      {target result old new : Val} {fault : Fault}
      (split : schema.leaves name = before ++ leaf :: after)
      (earlier : ∀ other ∈ before, PartRead
        (fun old => schema.readNamed other.type old other.name fields)
        (other.path.map Segment.field) target result)
      (found : target.get? leaf.path = some old)
      (read : (schema.readNamed leaf.type old leaf.name fields).made = (.error fault, new))
      (own : Residue schema leaf.type (fields.get? leaf.name) old fault new)
      (left : result.get? leaf.path = some new)
      (later : ∀ other ∈ after, result.get? other.path = target.get? other.path)
      (untouched : ∀ trail : Trail,
        (∀ other ∈ before ++ [leaf], Trail.Apart (other.path.map Segment.field) trail) →
          result.at? trail = target.at? trail) :
      Residue schema (.record name) (some (.struct fields)) target (fault.inField leaf.name) result
  /-- A tuple fails with one of its slots. -/
  | slot {types : List Ty} {nodes : List Node} {cursor position : Nat} {type : Ty}
      {target result old new : Val} {fault : Fault}
      (known : types[position]? = some type)
      (earlier : schema.SlotsRead types nodes position target result)
      (found : target.at? [.index position] = some old)
      (read : (schema.readNext type old ⟨nodes, position⟩).made = (.error fault, new))
      (own : Residue schema type nodes[position]? old fault new)
      (left : result.at? [.index position] = some new)
      (later : ∀ other, position < other →
        result.at? [.index other] = target.at? [.index other]) :
      Residue schema (.tuple types) (some (.array nodes cursor)) target (fault.atIndex position)
        result
  | slotsEnded {types : List Ty} {nodes : List Node} {cursor : Nat} {target result : Val}
      (fewer : nodes.length < types.length)
      (earlier : schema.SlotsRead types nodes nodes.length target result)
      (later : ∀ other, nodes.length ≤ other →
        result.at? [.index other] = target.at? [.index other]) :
      Residue schema (.tuple types) (some (.array nodes cursor)) target
        (.of (.tupleEnded types.length nodes.length)) result
  | slotsLeft {types : List Ty} {nodes : List Node} {cursor : Nat} {target result : Val}
      (more : types.length < nodes.length)
      (all : schema.SlotsRead types nodes types.length target result) :
      Residue schema (.tuple types) (some (.array nodes cursor)) target
        (.of (.tupleContinues types.length)) result
  /-- A sequence holds the elements before the one that it fails with. -/
  | element {kind : SequenceKind} {item : Ty} {nodes : List Node} {cursor : Nat} {target : Val}
      {values : List Val} {fault : Fault}
      (earlier : ∀ (position : Nat) value, values[position]? = some value →
        (schema.readNext item (schema.default item) ⟨nodes, position⟩).made = (.ok (), value))
      (failed : (schema.readNext item (schema.default item) ⟨nodes, values.length⟩).outcome =
        .error fault) :
      Residue schema (.sequence kind item) (some (.array nodes cursor)) target
        (fault.atIndex values.length) (.list values)
  /-- A map that is read from a struct holds the last ones of the entries before the failing one. -/
  | entry {kind : MapKind} {key value : Ty} {naming : KeyNaming} {fields : Fields} {target : Val}
      {before after : List String} {name : String} {added held : List (Val × Val)} {fault : Fault}
      (named : schema.keyNaming? key = some naming)
      (split : fields.names = before ++ name :: after)
      (earlier : List.Forall₂ (schema.ReadsEntry naming value fields) before added)
      (refused : schema.RefusesEntry naming key value fields name fault)
      (last : Val.LastOf added held) :
      Residue schema (.map kind key value) (some (.struct fields)) target fault (.map held)
  /-- A map that is read from an array likewise. -/
  | pair {kind : MapKind} {key value : Ty} {nodes : List Node} {cursor : Nat} {target : Val}
      {added held : List (Val × Val)} {fault : Fault}
      (unnamed : schema.keyNaming? key = none)
      (earlier : ∀ (position : Nat) entry, added[position]? = some entry →
        (schema.readPair key value ⟨nodes, position⟩).made = (.ok (), entry))
      (failed : (schema.readPair key value ⟨nodes, added.length⟩).outcome = .error fault)
      (last : Val.LastOf added held) :
      Residue schema (.map kind key value) (some (.array nodes cursor)) target
        (fault.atIndex added.length) (.map held)
  | boxed {inner : Ty} {node? : Option Node} {target result : Val} {fault : Fault}
      (content : Residue schema inner node? target fault result) :
      Residue schema (.boxed inner) node? target fault result

/-- That the members of a structure access distinct fields, also those of what it extends. -/
def MembersApart (schema : Schema) (name : String) : Prop :=
  (schema.leaves name).Pairwise fun first second => Val.Apart first.path second.path

/-- That the members of all structures that a type leads to access distinct fields. -/
def PartsApart (schema : Schema) (type : Ty) : Prop :=
  ∀ name, schema.Part type (.record name) → schema.MembersApart name

variable {schema : Schema} {type part : Ty} {name : String} {types : List Ty}

theorem PartsApart.direct (apart : schema.PartsApart type) (inside : schema.Direct type part) :
    schema.PartsApart part := fun name further => apart name (.head inside further)

theorem parts_apart_of (own : ∀ name, type = .record name → schema.MembersApart name)
    (parts : ∀ part, schema.Direct type part → schema.PartsApart part) : schema.PartsApart type := by
  intro name inside
  rcases inside.cases_head with same | ⟨part, direct, further⟩
  · exact own name same
  · exact parts part direct name further

/-- That a step, where it fails, leaves what a failed reading leaves. -/
def LeavesResidue (schema : Schema) (type : Ty) (node? : Option Node) (step : Step Val) : Prop :=
  ∀ target fault result, schema.Formed type target → step target = (.error fault, result) →
    schema.Residue type node? target fault result

section Portions

theorem member_portions_apart (apart : schema.MembersApart name) (fields : Fields) :
    Portion.AllApart ((schema.leaves name).map (schema.memberPortion fields)) := by
  rw [Portion.AllApart, List.pairwise_map]
  exact apart.imp Val.apart_fields.mpr

/-- What has been read before is no part of a later member, so the failing member finds what the
target has held at first. -/
theorem object_leaves_residue (sound : schema.Sound) (assembled : schema.Assembled)
    (apart : schema.MembersApart name) {fields : Fields}
    (members : ∀ leaf ∈ schema.leaves name, schema.LeavesResidue leaf.type (fields.get? leaf.name)
      (schema.fill leaf.type (Fields.inlet leaf.name) fields)) :
    schema.LeavesResidue (.record name) (some (.struct fields)) fun target =>
      (schema.readObject name target fields).made := by
  intro target fault result formed run
  dsimp only at run
  cases declared : (schema.structureInfo name).members with
  | error broken =>
      rw [read_object_eq assembled, declared] at run
      cases run
      exact .undeclared declared
  | ok known =>
      rw [read_object_filled sound assembled declared formed fields] at run
      obtain ⟨before, leaf, after, split, earlier, own, later, untouched⟩ :=
        Portion.mapped_filled_until (member_portions_apart apart fields)
          (fun leaf inside => formed.entire _ _ (leaf_reaches sound inside)) run
      have inside : leaf ∈ schema.leaves name := by simp [split]
      obtain ⟨outcome, old, new, same, found, made, left⟩ := own.located
      cases outcome with
      | ok done => cases same
      | error inner =>
          cases same
          have residue := members leaf inside old inner new
            (formed.inside (leaf_reaches sound inside) found) made
          rw [Val.at_fields] at found left
          refine .member split (fun other otherInside => (earlier other otherInside).read) found made
            residue left (fun other otherInside => ?_) untouched
          rw [← Val.at_fields, ← Val.at_fields]
          exact later other otherInside

theorem slots_increase (types : List Ty) (count : Nat) :
    (slotsFrom types count 0).Pairwise fun first second => first.2 < second.2 := by
  rw [← List.pairwise_map (f := Prod.snd), slotsFrom, List.zipIdx_map_snd]
  exact List.pairwise_lt_range'

theorem slots_apart {first second : Nat} (different : first ≠ second) :
    Trail.Apart [.index first] [.index second] := fun same => different (Segment.index.inj same)

theorem slot_portions_apart (types : List Ty) (count : Nat) (nodes : List Node) :
    Portion.AllApart ((slotsFrom types count 0).map (schema.slotPortion nodes)) := by
  rw [Portion.AllApart, List.pairwise_map]
  exact (slots_increase types count).imp fun less => slots_apart (Nat.ne_of_lt less)

theorem slot_portions_present {target : Val} (formed : schema.Formed (.tuple types) target)
    (count : Nat) (nodes : List Node) : ∀ slot ∈ slotsFrom types count 0,
      ∃ part, target.at? (schema.slotPortion nodes slot).trail = some part :=
  fun _ inside => formed.entire _ _ (slot_reaches (mem_slots_from.mp inside).1)

theorem failing_slot_residue {nodes : List Node} {cursor : Nat} {target result : Val} {fault : Fault}
    (formed : schema.Formed (.tuple types) target)
    (slots : ∀ type ∈ types, ∀ position, schema.LeavesResidue type nodes[position]?
      (schema.fill type Slots.inlet ⟨nodes, position⟩))
    (run : Step.all (((slotsFrom types nodes.length 0).map (schema.slotPortion nodes)).map
      Portion.filled) target = (.error fault, result)) :
    schema.Residue (.tuple types) (some (.array nodes cursor)) target fault result := by
  obtain ⟨before, ⟨type, position⟩, after, split, earlier, own, -, untouched⟩ :=
    Portion.mapped_filled_until (slot_portions_apart types nodes.length nodes)
      (slot_portions_present formed nodes.length nodes) run
  have increase := slots_increase types nodes.length
  rw [split] at increase
  obtain ⟨-, ownIncrease, across⟩ := List.pairwise_append.mp increase
  have inside : (type, position) ∈ slotsFrom types nodes.length 0 := by simp [split]
  obtain ⟨known, within⟩ := mem_slots_from.mp inside
  obtain ⟨outcome, old, new, same, found, made, left⟩ := own.located
  cases outcome with
  | ok done => cases same
  | error inner =>
      cases same
      have residue := slots type (List.mem_of_getElem? known) position old inner new
        (formed.inside (slot_reaches known) found) made
      refine .slot known (fun other otherType less otherKnown => ?_) found made residue left
        fun other beyond => untouched _ fun slot slotInside => slots_apart ?_
      · have otherInside : (otherType, other) ∈ slotsFrom types nodes.length 0 :=
          mem_slots_from.mpr ⟨otherKnown, less.trans within⟩
        rw [split] at otherInside
        rcases List.mem_append.mp otherInside with otherBefore | otherRest
        · exact (earlier _ otherBefore).read
        · rcases List.mem_cons.mp otherRest with same | otherAfter
          · cases same
            exact absurd less (Nat.lt_irrefl _)
          · have greater := (List.pairwise_cons.mp ownIncrease).1 _ otherAfter
            exact absurd (less.trans greater) (Nat.lt_irrefl _)
      · rcases List.mem_append.mp slotInside with slotBefore | slotOwn
        · have less := across slot slotBefore _ List.mem_cons_self
          exact Nat.ne_of_lt (less.trans beyond)
        · rw [List.mem_singleton.mp slotOwn]
          exact Nat.ne_of_lt beyond

/-- Where all slots that there are elements for have been read, only the number of elements can be
wrong. -/
theorem uneven_slots_residue {nodes : List Node} {cursor : Nat} {target next result : Val}
    {fault : Fault} (formed : schema.Formed (.tuple types) target)
    (run : Step.all (((slotsFrom types nodes.length 0).map (schema.slotPortion nodes)).map
      Portion.filled) target = (.ok (), next))
    (uneven : tupleEnd types.length nodes.length next = (.error fault, result)) :
    schema.Residue (.tuple types) (some (.array nodes cursor)) target fault result := by
  obtain ⟨filled, untouched⟩ := Portion.all_filled (slot_portions_apart types nodes.length nodes)
    (List.forall_mem_map.mpr (slot_portions_present formed nodes.length nodes)) run
  have read : schema.SlotsRead types nodes nodes.length target next :=
    fun position type inside known => (filled _ (List.mem_map_of_mem
      (mem_slots_from.mpr ⟨known, inside⟩))).read
  unfold tupleEnd at uneven
  split_ifs at uneven with fewer more
  · cases uneven
    refine .slotsEnded fewer read fun other later => untouched _ fun portion inside => ?_
    obtain ⟨⟨type, position⟩, slotInside, rfl⟩ := List.mem_map.mp inside
    have within := (mem_slots_from.mp slotInside).2
    exact slots_apart (by omega)
  · cases uneven
    exact .slotsLeft more fun position type inside known => read position type (by omega) known
  · cases uneven

theorem tuple_leaves_residue {State : Type} {inlet : Inlet State} {state next : State}
    {nodes : List Node} {cursor : Nat} (opened : inlet.openArray state = (.ok ⟨nodes, 0⟩, next))
    (slots : ∀ type ∈ types, ∀ position, schema.LeavesResidue type nodes[position]?
      (schema.fill type Slots.inlet ⟨nodes, position⟩)) :
    schema.LeavesResidue (.tuple types) (some (.array nodes cursor))
      (schema.fill (.tuple types) inlet state) := by
  intro target fault result formed run
  obtain ⟨targets, rfl, fits⟩ := formed.tuple
  rw [fill, read_tuple_filled fits opened, Step.andThen] at run
  rcases filled : Step.all (((slotsFrom types nodes.length 0).map (schema.slotPortion nodes)).map
    Portion.filled) (.tuple targets) with ⟨_ | _, next⟩
  · rw [filled] at run
    cases run
    exact failing_slot_residue formed slots filled
  · rw [filled] at run
    exact uneven_slots_residue formed filled run

end Portions

section Refilled

variable {State : Type} {inlet : Inlet State} {state next : State} {nodes : List Node} {cursor : Nat}

theorem sequence_leaves_residue {kind : SequenceKind} {item : Ty}
    (opened : inlet.openArray state = (.ok ⟨nodes, 0⟩, next)) :
    schema.LeavesResidue (.sequence kind item) (some (.array nodes cursor))
      (schema.fill (.sequence kind item) inlet state) := by
  intro target fault result _ run
  rw [fill, Schema.read, readAt, opened] at run
  obtain ⟨failed, made⟩ := Prod.mk.inj run
  obtain ⟨values, inner, read, earlier, stopped, rfl⟩ := read_array_failed
    (schema.reads_element schema.readObject item (schema.default item)) _ failed
  rw [made.symm.trans (congrArg Val.list (read.trans (foldl_append_items values [])))]
  exact .element earlier stopped

theorem named_map_leaves_residue (assembled : schema.Assembled) {kind : MapKind} {key value : Ty}
    {naming : KeyNaming} (named : schema.keyNaming? key = some naming) {fields : Fields}
    (opened : inlet.openStruct state = (.ok fields, next)) :
    schema.LeavesResidue (.map kind key value) (some (.struct fields))
      (schema.fill (.map kind key value) inlet state) := by
  intro target fault result _ run
  rw [fill, Schema.read, readAt, named] at run
  dsimp only at run
  rw [opened] at run
  obtain ⟨failed, made⟩ := Prod.mk.inj run
  obtain ⟨before, name, after, added, split, earlier, refused, read⟩ :=
    read_entries_failed assembled naming key value rfl failed
  rw [made.symm.trans (congrArg Val.map read)]
  exact .entry named split earlier refused (Val.insert_all_last added)

theorem paired_map_leaves_residue {kind : MapKind} {key value : Ty}
    (unnamed : schema.keyNaming? key = none)
    (opened : inlet.openArray state = (.ok ⟨nodes, 0⟩, next)) :
    schema.LeavesResidue (.map kind key value) (some (.array nodes cursor))
      (schema.fill (.map kind key value) inlet state) := by
  intro target fault result _ run
  rw [fill, Schema.read, readAt, unnamed] at run
  dsimp only at run
  rw [opened] at run
  obtain ⟨failed, made⟩ := Prod.mk.inj run
  obtain ⟨added, inner, read, earlier, stopped, rfl⟩ :=
    read_array_failed (reads_record _ _) _ failed
  rw [made.symm.trans (congrArg Val.map read)]
  exact .pair unnamed earlier stopped (Val.insert_all_last added)

end Refilled

section Closed

theorem find_shown (fields : Fields) (name : String) :
    ((Fields.site name).found fields).toOption = fields.get? name := by
  simp only [Fields.site, Fields.find]
  cases fields.get? name <;> rfl

theorem next_shown (slots : Slots) : (Slots.site.found slots).toOption = slots.current? := by
  simp only [Slots.site, Slots.next]
  cases slots.current? <;> rfl

variable {State : Type} {site : Site State} {state : State} {node? : Option Node}

theorem not_taken {Value : Type} (take : Node → Except Fault Value) {node : Node} {value : Value}
    {fault : Fault} (taken : take node = .ok value)
    (refused : (site.found state).bind take = .error fault) :
    (site.found state).toOption ≠ some node := by
  intro shown
  cases found : site.found state with
  | error missing =>
      rw [found] at shown
      cases shown
  | ok known =>
      rw [found] at shown refused
      cases shown
      rw [Except.bind, taken] at refused
      cases refused

theorem closed_struct {fault : Fault} {next : State} (struct : schema.container type = some .struct)
    (refused : site.inlet.openStruct state = (.error fault, next)) :
    ¬ schema.Opens type (site.found state).toOption := by
  rw [site.open_struct_eq] at refused
  rintro ⟨node, shown, same⟩
  rw [struct] at same
  cases node <;> cases same
  exact not_taken Node.structFields rfl (Prod.mk.inj refused).1 shown

theorem closed_array {fault : Fault} {next : State} (array : schema.container type = some .array)
    (refused : site.inlet.openArray state = (.error fault, next)) :
    ¬ schema.Opens type (site.found state).toOption := by
  rw [site.open_array_eq] at refused
  rintro ⟨node, shown, same⟩
  rw [array] at same
  cases node <;> cases same
  exact not_taken Node.arraySlots rfl (Prod.mk.inj refused).1 shown

theorem closed_always (nothing : schema.container type = none) : ¬ schema.Opens type node? := by
  rintro ⟨node, -, same⟩
  rw [nothing] at same
  cases same

/-- What is replaced only by what has been read keeps what it held. -/
theorem unchanged_leaves_residue (closed : ¬ schema.Opens type node?)
    (unchanged : ∀ target fault, (schema.read type target site.inlet state).outcome = .error fault →
      (schema.read type target site.inlet state).target = target) :
    schema.LeavesResidue type node? (schema.fill type site.inlet state) := by
  intro target fault result _ run
  obtain ⟨failed, made⟩ := Prod.mk.inj run
  rw [← made, unchanged target fault failed]
  exact .closed closed

theorem scalar_unchanged {inlet : Inlet State} {decode : AnyValue → Except Fault Val} {target : Val}
    {fault : Fault} (failed : (readScalar inlet decode target state).outcome = .error fault) :
    (readScalar inlet decode target state).target = target := by
  unfold readScalar at failed ⊢
  split at failed
  · rfl
  · split at failed
    · rfl
    · cases failed

theorem settle_unchanged {inlet : Inlet State} {inner : Ty} {target : Val} {content : Reading Val State}
    {fault : Fault} (failed : (settleOptional inlet inner target state content).outcome = .error fault) :
    (settleOptional inlet inner target state content).target = target := by
  unfold settleOptional at failed ⊢
  cases outcome : content.outcome with
  | ok done =>
      rw [outcome] at failed
      cases failed
  | error own =>
      rw [outcome] at failed
      dsimp only at failed ⊢
      split_ifs at failed ⊢
      · split at failed
        · cases failed
        · rfl
      · rfl

theorem scalar_leaves_residue {decode : AnyValue → Except Fault Val}
    (nothing : schema.container type = none)
    (scalar : ∀ target, schema.read type target site.inlet state =
      readScalar site.inlet decode target state) :
    schema.LeavesResidue type node? (schema.fill type site.inlet state) :=
  unchanged_leaves_residue (closed_always nothing) fun target fault => by
    rw [scalar]
    exact scalar_unchanged

/-- An optional fails only with what it does not absorb: over what it does not read it can pass. -/
theorem option_unchanged {inner : Ty} {target : Val} {fault : Fault}
    (failed : (schema.read (.option inner) target site.inlet state).outcome = .error fault) :
    (schema.read (.option inner) target site.inlet state).target = target := by
  rw [Schema.read, readAt] at failed ⊢
  split_ifs at failed ⊢ with exhausted holds
  · exact settle_unchanged failed
  · obtain ⟨left, skipped, -⟩ := site.skip_kept state (by simpa using exhausted)
    rw [skipped] at failed
    cases failed

end Closed

section Filling

variable {bound : Nat}

/-- That structures in documents up to a depth leave what a failed reading leaves. -/
def StructuresLeaveResidue (schema : Schema) (bound : Nat) : Prop :=
  ∀ name fields, (Node.struct fields).depth ≤ bound → schema.PartsApart (.record name) →
    schema.LeavesResidue (.record name) (some (.struct fields)) fun target =>
      (schema.readObject name target fields).made

mutual

/-- The recursion follows a type as far as it is read in place; what shallower structures leave is
given. -/
theorem fill_leaves_residue (sound : schema.Sound) (assembled : schema.Assembled)
    (structures : schema.StructuresLeaveResidue bound)
    (type : Ty) (apart : schema.PartsApart type) {State : Type} {site : Site State}
    (inside : site.FindsInside) {state : State} (shallow : (site.whole state).depth ≤ bound + 1) :
    schema.LeavesResidue type (site.found state).toOption (schema.fill type site.inlet state) := by
  cases type with
  | primitive scalar => exact scalar_leaves_residue rfl fun target => by rw [Schema.read, readAt]
  | string => exact scalar_leaves_residue rfl fun target => by rw [Schema.read, readAt]
  | textual name => exact scalar_leaves_residue rfl fun target => by rw [Schema.read, readAt]
  | enumeration name => exact scalar_leaves_residue rfl fun target => by rw [Schema.read, readAt]
  | option inner => exact unchanged_leaves_residue (closed_always rfl) fun _ _ => option_unchanged
  | record name =>
      rcases site.structs_cases state with ⟨fault, opened, -⟩ | ⟨child, opened, found⟩
      · exact unchanged_leaves_residue (closed_struct rfl opened) fun _ _ _ => by
          rw [Schema.read, readAt, opened]
      · have below := inside found
        have same : schema.fill (.record name) site.inlet state = fun target =>
            (schema.readObject name target child).made := by
          funext target
          rw [fill, Schema.read, readAt, opened]
          rfl
        rw [same, found]
        exact structures name child (by omega) apart
  | sequence kind item =>
      rcases site.arrays_cases state with ⟨fault, opened, -⟩ | ⟨nodes, cursor, opened, found⟩
      · exact unchanged_leaves_residue (closed_array rfl opened) fun _ _ _ => by
          rw [Schema.read, readAt, opened]
      · rw [found]
        exact sequence_leaves_residue opened
  | map kind key value =>
      cases named : schema.keyNaming? key with
      | some naming =>
          rcases site.structs_cases state with ⟨fault, opened, -⟩ | ⟨child, opened, found⟩
          · exact unchanged_leaves_residue (closed_struct (by simp [container, named]) opened)
              fun _ _ _ => by
                rw [Schema.read, readAt, named]
                dsimp only
                rw [opened]
          · rw [found]
            exact named_map_leaves_residue assembled named opened
      | none =>
          rcases site.arrays_cases state with ⟨fault, opened, -⟩ | ⟨nodes, cursor, opened, found⟩
          · exact unchanged_leaves_residue (closed_array (by simp [container, named]) opened)
              fun _ _ _ => by
                rw [Schema.read, readAt, named]
                dsimp only
                rw [opened]
          · rw [found]
            exact paired_map_leaves_residue named opened
  | tuple types =>
      rcases site.arrays_cases state with ⟨fault, opened, -⟩ | ⟨nodes, cursor, opened, found⟩
      · exact unchanged_leaves_residue (closed_array rfl opened) fun _ _ _ => by
          rw [Schema.read, readAt, opened]
      · have below := inside found
        rw [found]
        exact tuple_leaves_residue opened (slots_leave_residue sound assembled structures types
          (fun type typeInside => apart.direct (.slot typeInside)) (below.le.trans shallow))
  | boxed inner =>
      intro target fault result formed run
      rw [fill, Schema.read, readAt] at run
      exact .boxed (fill_leaves_residue sound assembled structures inner (apart.direct .boxed) inside
        shallow target fault result (formed_boxed.mp formed) run)

theorem slots_leave_residue (sound : schema.Sound) (assembled : schema.Assembled)
    (structures : schema.StructuresLeaveResidue bound)
    (types : List Ty) (apart : ∀ type ∈ types, schema.PartsApart type) {nodes : List Node}
    {cursor : Nat} (shallow : (Node.array nodes cursor).depth ≤ bound + 1) :
    ∀ type ∈ types, ∀ position, schema.LeavesResidue type nodes[position]?
      (schema.fill type Slots.inlet ⟨nodes, position⟩) := by
  cases types with
  | nil => simp
  | cons type types =>
      rw [List.forall_mem_cons] at apart ⊢
      refine ⟨fun position => ?_, slots_leave_residue sound assembled structures types apart.2 shallow⟩
      have own : schema.LeavesResidue type (Slots.site.found ⟨nodes, position⟩).toOption
          (schema.fill type Slots.site.inlet ⟨nodes, position⟩) :=
        fill_leaves_residue sound assembled structures type apart.1 Slots.site_finds_inside shallow
      rwa [next_shown] at own

end

/-- The induction is on how deep the document may be. -/
theorem structures_leave_residue (sound : schema.Sound) (assembled : schema.Assembled) (bound : Nat) :
    schema.StructuresLeaveResidue bound := by
  induction bound with
  | zero =>
      intro name fields shallow
      cases shallow
  | succ bound induction =>
      intro name fields shallow apart
      apply object_leaves_residue sound assembled (apart name .refl)
      intro leaf inside
      rw [← find_shown]
      exact fill_leaves_residue sound assembled induction leaf.type (apart.direct (.member inside))
        (Fields.site_finds_inside leaf.name) shallow

theorem read_leaves_residue (sound : schema.Sound) (assembled : schema.Assembled)
    (apart : schema.PartsApart type) {State : Type} {site : Site State} (inside : site.FindsInside)
    (state : State) :
    schema.LeavesResidue type (site.found state).toOption (schema.fill type site.inlet state) :=
  fill_leaves_residue sound assembled (structures_leave_residue sound assembled _) type apart inside
    (Nat.le_succ _)

end Filling

/-- What a failed reading leaves of its target, where the members of structures access distinct
fields. A structure, extensions included, has been read up to the member that it fails with, and the
members after it and all that is skipped are as they were; a tuple likewise, slot by slot; of the
failing member or slot the same is true again. A sequence or a map that has been open holds what was
read from the elements before the failing one, of each key the last value. Whatever else is read is
unchanged, as is anything that was not open. -/
theorem failed_readings_keep_what_was_read (sound : schema.Sound) (assembled : schema.Assembled)
    (apart : schema.PartsApart type) {target : Val} (typed : schema.HasType type target)
    {fault : Fault} :
    (∀ name fields, (schema.readNamed type target name fields).outcome = .error fault →
      schema.Residue type (fields.get? name) target fault
        (schema.readNamed type target name fields).target) ∧
    (∀ slots, (schema.readNext type target slots).outcome = .error fault →
      schema.Residue type slots.current? target fault (schema.readNext type target slots).target) ∧
    ∀ name fields, type = .record name →
      (schema.readObject name target fields).outcome = .error fault →
        schema.Residue type (some (.struct fields)) target fault
          (schema.readObject name target fields).target := by
  have formed := typed_formed typed
  refine ⟨?_, ?_, ?_⟩
  · intro name fields failed
    rw [← find_shown]
    exact read_leaves_residue sound assembled apart (Fields.site_finds_inside name) fields target
      fault _ formed (Prod.ext failed rfl)
  · intro slots failed
    rw [← next_shown]
    exact read_leaves_residue sound assembled apart Slots.site_finds_inside slots target fault _
      formed (Prod.ext failed rfl)
  · rintro name fields rfl failed
    exact structures_leave_residue sound assembled _ name fields le_rfl apart target fault _ formed
      (Prod.ext failed rfl)

theorem route_parts_apart : Route.schema.PartsApart (.record "Stop") := by
  intro name inside
  obtain rfl : name = "Stop" := by simpa [Route.fares, Route.next] using Route.parts inside
  have leaves : Route.schema.leaves "Stop" = [⟨"name", ["name"], .string⟩,
    ⟨"fares", ["fares"], Route.fares⟩, ⟨"next", ["next"], Route.next⟩] := rfl
  simp [MembersApart, leaves, Val.Apart]

theorem day_parts_apart : Route.schema.PartsApart (.tuple [.string, .boxed (.record "Stop")]) := by
  refine parts_apart_of (fun _ same => by cases same) fun part direct => ?_
  cases direct with
  | slot inside =>
      rcases List.mem_pair.mp inside with rfl | rfl
      · exact parts_apart_of (fun _ same => by cases same) fun _ direct => by cases direct
      · refine parts_apart_of (fun _ same => by cases same) fun part direct => ?_
        cases direct
        exact route_parts_apart

/-- A stop in a box, in a tuple, one of whose fares is not a number: the name and the fare before it
have been read, the next stop and the visits, which are skipped, are those of the target. -/
theorem failed_readings_keep_what_was_read_fare :
    let day : Ty := .tuple [.string, .boxed (.record "Stop")]
    let target := Val.tuple [.text "Sunday", Route.stop "North" [(.text "child", .int 4)] .absent 3]
    let document : Slots := ⟨[.array [.text "Monday", .struct [("name", .text "East"),
      ("fares", .struct [("adult", .uint 7), ("child", .text "free")])]] 0], 0⟩
    let reading := Route.schema.readNext day target document
    let fault : Fault := ⟨.typeMismatch "i32" "alloc::string::String",
      [.index 1, .field "fares", .field "child"]⟩
    Route.schema.Sound ∧ Route.schema.Assembled ∧ Route.schema.PartsApart day ∧
      Route.schema.HasType day target ∧ reading.outcome = .error fault ∧
      Route.schema.Residue day document.current? target fault reading.target ∧
      reading.target.equal (.tuple [.text "Monday",
        Route.stop "East" [(.text "adult", .int 7)] .absent 3]) = true := by
  intro day target document reading fault
  have fares : Route.schema.HasType Route.fares (.map [(.text "child", .int 4)]) :=
    .map (by simpa using .string _) (by simp [Val.equal]) (by simpa using .int (by decide)) (by simp)
  have typed : Route.schema.HasType day target :=
    .tuple (.cons (.string _) (.cons (.boxed (Route.stop_typed fares .absent (by decide))) .nil))
  have failed : reading.outcome = .error fault := by decide +kernel
  obtain ⟨-, next, -⟩ :=
    failed_readings_keep_what_was_read Route.sound Route.assembled day_parts_apart typed
  exact ⟨Route.sound, Route.assembled, day_parts_apart, typed, failed, next document failed,
    by decide +kernel⟩

end Schema

end Marshal
