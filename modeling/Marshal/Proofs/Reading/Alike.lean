import Marshal.Proofs.Reading.Likeness

/-!
# Alike documents are read alike

A likeness is kept through containers, members and levels of structures, so that two readings from
alike places succeed or fail alike and make the same of one target.
-/

namespace Marshal

namespace Schema

variable {schema : Schema} {like : Likeness}

section Level

variable {deeper : String → Val → Fields → Reading Val Fields}

mutual

/-- Alike documents are read alike at any place. The recursion follows the type. -/
theorem read_at_alike
    (structures : ∀ name target {left right}, like.fields left right →
      like.ReadingsAlike like.fields (deeper name target left) (deeper name target right))
    (type : Ty) (target : Val) {State : Type} {site : Site State} {states : State → State → Prop}
    (respects : like.Respects site states) {left right : State} (alike : states left right) :
    like.ReadingsAlike states (schema.readAt deeper type target site.inlet left)
      (schema.readAt deeper type target site.inlet right) := by
  cases type with
  | primitive scalar =>
      rw [readAt, readAt]
      exact Likeness.scalar_alike respects (fun nodes => like.numbers nodes scalar) target alike
  | string =>
      rw [readAt, readAt]
      exact Likeness.scalar_alike respects like.texts target alike
  | textual name =>
      rw [readAt, readAt]
      exact Likeness.scalar_alike respects like.texts target alike
  | enumeration name =>
      rw [readAt, readAt]
      exact Likeness.scalar_alike respects (fun nodes => Likeness.text_taken nodes _) target alike
  | record name =>
      rw [readAt, readAt]
      rcases Likeness.structs_opened respects alike with
        ⟨first, second, opened, other, faults⟩ | ⟨first, second, opened, other, fields⟩
      · rw [opened, other]
        exact ⟨.error faults, rfl, respects.next alike⟩
      · rw [opened, other]
        obtain ⟨outcome, same, source⟩ := structures name target fields
        exact ⟨outcome, same, respects.struct alike source⟩
  | option inner =>
      rw [readAt, readAt, respects.exhausted alike, respects.held alike]
      split_ifs
      · exact ⟨.ok rfl, rfl, alike⟩
      · exact Likeness.settle_alike respects inner target alike
          (read_at_alike structures inner (schema.default inner) respects alike)
      · obtain ⟨skipped, next⟩ := respects.skip alike
        exact ⟨skipped, rfl, next⟩
  | sequence kind item =>
      rw [readAt, readAt]
      rcases Likeness.arrays_opened respects alike with
        ⟨first, second, opened, other, faults⟩ | ⟨first, second, opened, other, slots⟩
      · rw [opened, other]
        exact ⟨.error faults, rfl, respects.next alike⟩
      · rw [opened, other, ]
        dsimp only
        rw [slots.items.length_eq]
        obtain ⟨outcome, same, source⟩ := Likeness.read_elements_alike
          (fun slots => read_at_alike structures item (schema.default item) like.respects_next slots)
          (fun items element => items ++ [element]) second.items.length [] slots
        exact ⟨outcome, congrArg Val.list same, respects.array alike source⟩
  | map kind keyType valueType =>
      rw [readAt, readAt]
      cases schema.keyNaming? keyType with
      | some naming =>
          dsimp only
          rcases Likeness.structs_opened respects alike with
            ⟨first, second, opened, other, faults⟩ | ⟨first, second, opened, other, fields⟩
          · rw [opened, other]
            exact ⟨.error faults, rfl, respects.next alike⟩
          · rw [opened, other]
            dsimp only
            rw [Likeness.names_alike fields]
            obtain ⟨outcome, same, source⟩ := Likeness.read_entries_alike naming keyType.name
              (fun name _ _ fields => read_at_alike structures valueType (schema.default valueType)
                (like.respects_field name) fields) second.names [] fields
            exact ⟨outcome, congrArg Val.map same, respects.struct alike source⟩
      | none =>
          dsimp only
          rcases Likeness.arrays_opened respects alike with
            ⟨first, second, opened, other, faults⟩ | ⟨first, second, opened, other, slots⟩
          · rw [opened, other]
            exact ⟨.error faults, rfl, respects.next alike⟩
          · rw [opened, other]
            dsimp only
            rw [slots.items.length_eq]
            obtain ⟨outcome, same, source⟩ := Likeness.read_elements_alike
              (fun slots => Likeness.read_record_alike
                (fun fields => read_at_alike structures keyType (schema.default keyType)
                  (like.respects_field keyField) fields)
                (fun fields => read_at_alike structures valueType (schema.default valueType)
                  (like.respects_field valueField) fields) slots)
              (fun entries entry => Val.insertEntry entries entry.1 entry.2)
              second.items.length [] slots
            exact ⟨outcome, congrArg Val.map same, respects.array alike source⟩
  | tuple slots =>
      rw [readAt, readAt]
      rcases Likeness.arrays_opened respects alike with
        ⟨first, second, opened, other, faults⟩ | ⟨first, second, opened, other, elements⟩
      · rw [opened, other]
        exact ⟨.error faults, rfl, respects.next alike⟩
      · rw [opened, other]
        obtain ⟨outcome, same, source⟩ :=
          read_slots_alike structures slots slots.length 0 target.slots elements
        exact ⟨outcome, congrArg Val.tuple same, respects.array alike source⟩
  | boxed inner =>
      rw [readAt, readAt]
      exact read_at_alike structures inner target respects alike

theorem read_slots_alike
    (structures : ∀ name target {left right}, like.fields left right →
      like.ReadingsAlike like.fields (deeper name target left) (deeper name target right))
    (types : List Ty) (arity position : Nat) (targets : List Val) {left right : Slots}
    (slots : like.SlotsAlike left right) :
    like.ReadingsAlike like.SlotsAlike (schema.readSlots deeper arity position types targets left)
      (schema.readSlots deeper arity position types targets right) := by
  cases types with
  | nil =>
      rw [readSlots, readSlots, Likeness.complete_alike slots]
      split_ifs
      · exact ⟨.ok rfl, rfl, slots⟩
      · exact ⟨.error (like.fault_refl _), rfl, slots⟩
  | cons type types =>
      rw [readSlots, readSlots, Likeness.complete_alike slots]
      split_ifs
      · exact ⟨.error (like.fault_refl _), rfl, slots⟩
      · obtain ⟨outcome, same, source⟩ := read_at_alike structures type
          (targets.head?.getD (schema.default type)) like.respects_next slots
        dsimp only
        rcases outcome.either with ⟨first, second, failed, other, faults⟩ | ⟨_, _, done, other, -⟩
        · simp only [Slots.site] at failed other same source
          rw [failed, other, same]
          exact ⟨.error (like.at_index faults _), rfl, source⟩
        · simp only [Slots.site] at done other same source
          rw [done, other, same]
          obtain ⟨outcome, others, source⟩ :=
            read_slots_alike structures types arity (position + 1) targets.tail source
          exact ⟨outcome, congrArg (List.cons _) others, source⟩

end

mutual

theorem read_member_alike
    (structures : ∀ name target {left right}, like.fields left right →
      like.ReadingsAlike like.fields (deeper name target left) (deeper name target right))
    (member : Member) (owner : Val) {left right : Fields} (fields : like.fields left right) :
    like.ReadingsAlike like.fields (schema.readMember deeper owner left member)
      (schema.readMember deeper owner right member) := by
  cases member with
  | field head type =>
      rw [readMember, readMember]
      obtain ⟨outcome, same, source⟩ := read_at_alike structures type
        (memberValue owner head.path (schema.default type)) (like.respects_field head.name) fields
      exact ⟨outcome.map_error fun faults => like.in_field faults _, congrArg (owner.set head.path) same, source⟩
  | extend head base members =>
      rw [readMember, readMember]
      obtain ⟨outcome, same, source⟩ := read_members_alike structures members
        (memberValue owner head.path (schema.structureInfo base).initial) fields
      exact ⟨outcome, congrArg (owner.set head.path) same, source⟩

theorem read_members_alike
    (structures : ∀ name target {left right}, like.fields left right →
      like.ReadingsAlike like.fields (deeper name target left) (deeper name target right))
    (members : List Member) (owner : Val) {left right : Fields} (fields : like.fields left right) :
    like.ReadingsAlike like.fields (schema.readMembers deeper owner left members)
      (schema.readMembers deeper owner right members) := by
  cases members with
  | nil =>
      rw [readMembers, readMembers]
      exact ⟨.ok rfl, rfl, fields⟩
  | cons member rest =>
      rw [readMembers, readMembers]
      obtain ⟨outcome, same, source⟩ := read_member_alike structures member owner fields
      rcases outcome.either with ⟨first, second, failed, other, faults⟩ | ⟨_, _, done, other, -⟩
      · rw [failed, other]
        exact ⟨.error faults, same, source⟩
      · rw [done, other, same]
        exact (read_members_alike structures rest _ source).after _ _

end

end Level

theorem read_structure_alike (levels : Nat) (name : String) (target : Val) {left right : Fields}
    (fields : like.fields left right) :
    like.ReadingsAlike like.fields (schema.readStructure levels name target left)
      (schema.readStructure levels name target right) := by
  induction levels generalizing name target left right with
  | zero => exact ⟨.ok rfl, rfl, fields⟩
  | succ levels induction =>
      rw [readStructure, readStructure]
      cases (schema.structureInfo name).members with
      | error fault => exact ⟨.error (like.fault_refl _), rfl, fields⟩
      | ok members => exact read_members_alike induction members target fields

theorem object_alike (name : String) (target : Val) {left right : Fields}
    (fields : like.fields left right) :
    like.ReadingsAlike like.fields (schema.readObject name target left)
      (schema.readObject name target right) := by
  rw [readObject, readObject, Likeness.depth_alike fields]
  exact read_structure_alike _ name target fields

/-- Readings of alike documents differ only in their records and in what the documents keep to
themselves. -/
theorem read_alike (type : Ty) (target : Val) {State : Type} {site : Site State}
    {states : State → State → Prop} (respects : like.Respects site states) {left right : State}
    (alike : states left right) :
    like.ReadingsAlike states (schema.read type target site.inlet left)
      (schema.read type target site.inlet right) :=
  read_at_alike (fun name target _ _ fields => object_alike name target fields) type target respects
    alike

end Schema

end Marshal
