import Marshal.Proofs.RoundTrip.Structures

/-!
# The round trip of a value through a tree document

Every value of a restorable type is carried by some node, or by an empty place if it is an absent
optional. So writing it as a field or as the next element succeeds, and reading it from there into
any target restores it.
-/

namespace Marshal

namespace Schema

variable {schema : Schema}

/-- Every value of a restorable type is carried by a node. The value becomes less deep from a
structure or a container to its parts, and the type becomes smaller at a box. -/
theorem carried (sound : schema.Sound) (type : Ty) (value : Val) (typed : schema.HasType type value)
    (restorable : schema.Restorable type) (mapped : schema.Mapped type value) :
    ∃ node?, schema.Carries type value node? := by
  cases typed with
  | bool flag => exact bool_carries flag
  | int fits => exact int_carries fits
  | single number => exact single_carries number
  | double number => exact double_carries number
  | string text => exact string_carries text
  | textual text => exact textual_carries _ text
  | enumeration code => exact enumeration_carries sound mapped
  | @record name fields names typed =>
      have typed := HasType.record names typed
      apply record_carries sound typed (restorable.declared name .refl)
      intro leaf inside inner found
      have innerTyped := leads_found (leaf_leads sound inside).2 typed found
      have below := leaf_below sound inside found
      exact carried sound leaf.type inner innerTyped (restorable.direct (.member inside))
        (mapped.inside (.member inside found))
  | absent => exact absent_carries _
  | @present inner content typed =>
      have below : content.depth < (Val.present content).depth := Nat.lt_succ_self _
      exact present_carries sound (restorable.optional inner .refl)
        (carried sound inner content typed (restorable.direct .content) (mapped.inside .content))
  | @sequence kind item items typed =>
      apply sequence_carries sound
      intro element inside
      have below : element.depth < (Val.list items).depth :=
        Nat.lt_succ_of_le (Val.depth_item inside)
      exact carried sound item element (typed element inside) (restorable.direct .item)
        (mapped.inside (.item inside))
  | @map kind keyType valueType entries keys comparable values sorted =>
      have typed : schema.HasType (.map kind keyType valueType) (.map entries) :=
        .map keys comparable values sorted
      have values : ∀ entry ∈ entries, ∃ node?, schema.Carries valueType entry.2 node? := by
        intro entry inside
        have below : entry.2.depth < (Val.map entries).depth :=
          Nat.lt_succ_of_le (Val.depth_entry inside).2
        exact carried sound valueType entry.2 (values entry inside) (restorable.direct .value)
          (mapped.inside (.value inside))
      cases naming : schema.keyNaming? keyType with
      | some found =>
          obtain ⟨required, inverse⟩ := restorable.named kind keyType valueType found .refl naming
          exact named_map_carries sound typed naming required inverse values
      | none =>
          apply record_map_carries sound typed naming (restorable.keys kind keyType valueType .refl)
          intro entry inside
          have below : entry.1.depth < (Val.map entries).depth :=
            Nat.lt_succ_of_le (Val.depth_entry inside).1
          have key := carried sound keyType entry.1 (keys entry inside) (restorable.direct .key)
            (mapped.inside (.key inside))
          exact ⟨key, values entry inside⟩
  | @tuple types slots typed =>
      apply tuple_carries typed
      intro slot inside
      obtain ⟨typeInside, slotInside⟩ := List.of_mem_zip inside
      have below : slot.2.depth < (Val.tuple slots).depth :=
        Nat.lt_succ_of_le (Val.depth_item slotInside)
      exact carried sound slot.1 slot.2 ((List.forall₂_iff_zip.mp typed).2 inside)
        (restorable.direct (.slot typeInside)) (mapped.inside (.slot inside))
  | @boxed inner value typed =>
      exact boxed_carries
        (carried sound inner value typed (restorable.direct .boxed) (mapped.inside .boxed))
termination_by (value.depth, sizeOf type)
decreasing_by
  all_goals subst_vars
  all_goals simp only [Prod.lex_def, Ty.boxed.sizeOf_spec, true_and]
  all_goals omega

/-- What a reading makes of a value that was written: it succeeds, restores the value over the
target, agrees with the value in all that is written, and is the value where nothing is skipped. -/
structure Recovers {State : Type} (schema : Schema) (type : Ty) (value target : Val)
    (reading : Reading Val State) : Prop where
  outcome : reading.outcome = .ok ()
  restores : schema.Restores type value target reading.target
  alike : schema.Alike type value reading.target
  same : schema.NothingSkipped type → value.equal value = true → reading.target = value

theorem Reread.recovers (sound : schema.Sound) {type : Ty} {value target result : Val}
    {node? : Option Node} (typed : schema.HasType type value)
    (targetTyped : schema.HasType type target)
    (restores : schema.Restores type value target result)
    (reread : schema.Reread type node? target result) {State : Type} (place : TreePlace State)
    {state : State} (shows : place.Shows state node?) :
    schema.Recovers type value target (schema.read type target place.inlet state) := by
  obtain ⟨outcome, read, -⟩ := reread schema.readObject (deep_object _) place state shows
  have read : (schema.read type target place.inlet state).target = result := read
  refine ⟨outcome, read ▸ restores, read ▸ restores_alike sound typed restores, ?_⟩
  intro nothing equal
  rw [read]
  exact restores_exact sound typed targetTyped equal nothing restores

/-- A value that is written as a field of any struct, or as the next element of any array, is
restored by reading it from there into any target of its type. -/
theorem write_then_read (sound : schema.Sound) {type : Ty} {value : Val}
    (typed : schema.HasType type value) (restorable : schema.Restorable type)
    (mapped : schema.Mapped type value) :
    (∀ name fields, fields.holds name = false →
      ∃ written, schema.writeNamed type value name fields = (.ok (), written) ∧
        ∀ target, schema.HasType type target →
          schema.Recovers type value target (schema.readNamed type target name written)) ∧
    ∀ slots, ∃ written, schema.writeNext type value slots = (.ok (), written) ∧
      ∀ target, schema.HasType type target → schema.Recovers type value target
        (schema.readNext type target ⟨written.items, slots.items.length⟩) := by
  obtain ⟨node?, carries⟩ := carried sound type value typed restorable mapped
  constructor
  · intro name fields empty
    refine ⟨_, carries.written value.depth le_rfl (Fields.place name) fields, ?_⟩
    intro target targetTyped
    obtain ⟨result, restores, reread⟩ := carries.read target targetTyped
    exact reread.recovers sound typed targetTyped restores (Fields.place name)
      (Fields.shows_leave empty node?)
  · intro slots
    refine ⟨_, carries.written value.depth le_rfl Slots.place slots, ?_⟩
    intro target targetTyped
    obtain ⟨result, restores, reread⟩ := carries.read target targetTyped
    apply reread.recovers sound typed targetTyped restores Slots.place
    exact List.getElem?_concat_length

end Schema

namespace Route

def fares : Ty := .map .ordered .string (.primitive (.int .i32))

def next : Ty := .option (.boxed (.record "Stop"))

def calls : List MemberCall :=
  [.field ⟨"name", ⟨0, "name", .string⟩, ["name"]⟩ .string,
    .field ⟨"fares", ⟨24, "fares", fares⟩, ["fares"]⟩ fares,
    .field ⟨"next", ⟨48, "next", next⟩, ["next"]⟩ next]

def stop (name : String) (fares : List (Val × Val)) (next : Val) (visits : Int) : Val :=
  .record [("name", .text name), ("fares", .map fares), ("next", next), ("visits", .int visits)]

/-- The stops of a route, each with the fares from it and the stop after it. Visits are skipped. -/
def stopInfo : StructureInfo where
  name := "Stop"
  label := "Stop"
  fields := [("name", .string), ("fares", fares), ("next", next),
    ("visits", .primitive (.int .u32))]
  identities := []
  initial := stop "" [] .absent 0
  members := Declaration.build "Stop" calls

def schema : Schema := ⟨[stopInfo], [], []⟩

theorem stop_typed {name : String} {entries : List (Val × Val)} {value : Val} {visits : Int}
    (faresTyped : schema.HasType fares (.map entries)) (nextTyped : schema.HasType next value)
    (fits : IntKind.u32.holds visits = true) :
    schema.HasType (.record "Stop") (stop name entries value visits) := by
  apply Schema.HasType.record rfl
  intro field type known inner found
  have known : (field, type) ∈ stopInfo.fields := known
  simp only [stopInfo, List.mem_cons, Prod.mk.injEq, List.not_mem_nil, or_false] at known
  rcases known with ⟨rfl, rfl⟩ | ⟨rfl, rfl⟩ | ⟨rfl, rfl⟩ | ⟨rfl, rfl⟩ <;> cases found
  · exact .string _
  · exact faresTyped
  · exact nextTyped
  · exact .int fits

theorem no_fares : schema.HasType fares (.map []) :=
  .map (by simp) (by simp) (by simp) .nil

theorem calls_sound : ∀ call ∈ calls, schema.CallSound "Stop" call := by
  have reaches : ∀ field type, (field, type) ∈ stopInfo.fields →
      schema.Leads (.record "Stop") [field] type :=
    fun field type inside => ⟨"Stop", type, rfl, inside, rfl⟩
  simp only [calls, List.forall_mem_cons, Schema.CallSound]
  exact ⟨⟨by simp, reaches _ _ (by simp [stopInfo])⟩, ⟨by simp, reaches _ _ (by simp [stopInfo])⟩,
    ⟨by simp, reaches _ _ (by simp [stopInfo])⟩, by simp⟩

theorem sound : schema.Sound := by
  have structures : schema.structures = [stopInfo] := rfl
  apply Schema.sound_of_structures rfl <;> rw [structures] <;> simp only [List.forall_mem_singleton]
  · decide
  · exact stop_typed no_fares .absent (by decide)
  · exact ⟨calls, rfl, calls_sound⟩

/-- All types that a route is written in parts of. -/
theorem parts {part : Ty} (inside : schema.Part (.record "Stop") part) :
    part ∈ [.record "Stop", .string, fares, .primitive (.int .i32), next, .boxed (.record "Stop")] := by
  induction inside with
  | refl => exact List.mem_cons_self
  | tail _ direct known =>
      simp only [List.mem_cons, List.not_mem_nil, or_false] at known
      rcases known with rfl | rfl | rfl | rfl | rfl | rfl
      · cases direct with
        | member inside =>
            have leaves : schema.leaves "Stop" = [⟨"name", ["name"], .string⟩,
              ⟨"fares", ["fares"], fares⟩, ⟨"next", ["next"], next⟩] := rfl
            rw [leaves] at inside
            simp only [List.mem_cons, List.not_mem_nil, or_false] at inside
            rcases inside with rfl | rfl | rfl <;> simp
      · cases direct
      · cases direct <;> simp
      · cases direct
      · cases direct
        simp
      · cases direct
        simp

theorem restorable : schema.Restorable (.record "Stop") where
  declared name inside := by
    obtain rfl : name = "Stop" := by simpa [fares, next] using parts inside
    exact ⟨_, rfl⟩
  optional inner inside := by
    obtain rfl : inner = .boxed (.record "Stop") := by simpa [fares, next] using parts inside
    rfl
  named kind key value naming inside named := by
    obtain ⟨rfl, rfl, rfl⟩ : kind = .ordered ∧ key = .string ∧ value = .primitive (.int .i32) := by
      simpa [fares, next] using parts inside
    cases named
    exact ⟨rfl, fun text => ⟨text, rfl, rfl⟩⟩
  keys kind key value inside name further := by
    obtain ⟨rfl, rfl, rfl⟩ : kind = .ordered ∧ key = .string ∧ value = .primitive (.int .i32) := by
      simpa [fares, next] using parts inside
    rcases further.cases_head with same | ⟨_, direct, -⟩
    · cases same
    · cases direct

theorem mapped (value : Val) : schema.Mapped (.record "Stop") value :=
  Schema.mapped_of_parts (fun name inside => by simpa [fares, next] using parts inside) value

/-- A number that need not be given. -/
def count : Ty := .option (.int .u8)

theorem count_parts {part : Ty} (inside : schema.Part count part) :
    part = count ∨ part = .int .u8 := by
  induction inside with
  | refl => exact .inl rfl
  | tail _ direct known =>
      rcases known with rfl | rfl
      · cases direct
        exact .inr rfl
      · cases direct

end Route

/-- A route of two stops that is written as a field and read over another stop. -/
theorem Schema.write_then_read_route :
    let route := Route.stop "North" [(.text "adult", .int 310), (.text "child", .int 155)]
      (.present (Route.stop "South" [] .absent 7)) 12
    let target := Route.stop "" [] .absent 3
    Route.schema.Sound ∧ Route.schema.HasType (.record "Stop") route ∧
      Route.schema.Restorable (.record "Stop") ∧ Route.schema.Mapped (.record "Stop") route ∧
        ∃ written, Route.schema.writeNamed (.record "Stop") route "first" [] = (.ok (), written) ∧
          Route.schema.Recovers (.record "Stop") route target
            (Route.schema.readNamed (.record "Stop") target "first" written) := by
  intro route target
  have typed : Route.schema.HasType (.record "Stop") route := by
    refine Route.stop_typed (.map ?_ ?_ ?_ ?_)
      (.present (.boxed (Route.stop_typed Route.no_fares .absent (by decide)))) (by decide)
    · simp only [List.forall_mem_cons]
      exact ⟨.string _, .string _, by simp⟩
    · simp [Val.equal]
    · simp only [List.forall_mem_cons]
      exact ⟨.int (by decide), .int (by decide), by simp⟩
    · simp only [List.pairwise_cons, List.forall_mem_cons]
      exact ⟨⟨by decide +kernel, by simp⟩, by simp, .nil⟩
  obtain ⟨named, -⟩ :=
    Schema.write_then_read Route.sound typed Route.restorable (Route.mapped route)
  obtain ⟨written, ok, recovers⟩ := named "first" [] rfl
  exact ⟨Route.sound, typed, Route.restorable, Route.mapped route, written, ok,
    recovers target (Route.stop_typed Route.no_fares .absent (by decide))⟩

end Marshal
