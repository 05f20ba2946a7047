import Marshal.Proofs.Reading.Places
import Marshal.Read.Strict

/-!
# How far a reading moves on

A source may use up an element also where it refuses it, or may leave it in place. Whichever it
does, every reading moves on by one element when it succeeds and by at most one when it fails, so
an optional that has absorbed a failure has still used up its element, and no other.
-/

namespace Marshal

namespace Inlet

variable {State Value : Type} (inlet : Inlet State)

/-- One element is used up, or a failure has left it where it was. -/
def Strides (state : State) (outcome : Except Fault Value) (next : State) : Prop :=
  inlet.position next = inlet.position state + 1 ∨
    (∃ fault, outcome = .error fault) ∧ inlet.position next = inlet.position state ∧
      inlet.isExhausted next = inlet.isExhausted state

/-- That each operation of a source strides as long as elements are left. What is put back goes
to an element that has been used up. -/
structure Striding : Prop where
  value : ∀ state, inlet.isExhausted state = false →
    inlet.Strides state (inlet.value state).1 (inlet.value state).2
  skip : ∀ state, inlet.isExhausted state = false →
    inlet.Strides state (inlet.skip state).1 (inlet.skip state).2
  openStruct : ∀ state, inlet.isExhausted state = false →
    inlet.Strides state (inlet.openStruct state).1 (inlet.openStruct state).2
  openArray : ∀ state, inlet.isExhausted state = false →
    inlet.Strides state (inlet.openArray state).1 (inlet.openArray state).2
  storeStruct : ∀ child state, inlet.position (inlet.storeStruct child state) = inlet.position state
  storeArray : ∀ child state, inlet.position (inlet.storeArray child state) = inlet.position state

variable {inlet} {state next : State}

theorem Strides.moved {value : Value} (strides : inlet.Strides state (.ok value) next) :
    inlet.position next = inlet.position state + 1 := by
  rcases strides with moved | ⟨⟨fault, failed⟩, -⟩
  · exact moved
  · cases failed

/-- How far a failure has moved on does not depend on what was asked for. -/
theorem Strides.failed {Other : Type} {fault : Fault}
    (strides : inlet.Strides state (.error fault : Except Fault Value) next) (other : Fault) :
    inlet.Strides state (.error other : Except Fault Other) next := by
  rcases strides with moved | ⟨-, unmoved⟩
  · exact .inl moved
  · exact .inr ⟨⟨other, rfl⟩, unmoved⟩

end Inlet

namespace Slots

variable {slots : Slots}

theorem next_remaining (remaining : slots.isComplete = false) :
    ∃ node, slots.next = (.ok node, slots.advance) := by
  simp only [isComplete, decide_eq_false_iff_not, Nat.not_le] at remaining
  refine ⟨slots.items[slots.cursor], ?_⟩
  rw [next, current?, List.getElem?_eq_getElem remaining]

theorem next_complete (complete : slots.isComplete = true) :
    slots.next = (.error (.of (.slotMissing slots.items.length slots.cursor)), slots) := by
  simp only [isComplete, decide_eq_true_eq] at complete
  rw [next, current?, List.getElem?_eq_none complete]

/-- The elements of a document's array are used up whether or not they are what is asked for. -/
theorem inlet_striding : Slots.inlet.Striding where
  value state remaining := by
    obtain ⟨node, taken⟩ := next_remaining remaining
    refine .inl ?_
    simp only [inlet, taken, advance]
  skip state remaining := by
    obtain ⟨node, taken⟩ := next_remaining remaining
    refine .inl ?_
    simp only [inlet, taken, advance]
  openStruct state remaining := by
    obtain ⟨node, taken⟩ := next_remaining remaining
    refine .inl ?_
    simp only [inlet, taken, advance]
  openArray state remaining := by
    obtain ⟨node, taken⟩ := next_remaining remaining
    refine .inl ?_
    simp only [inlet, taken, advance]
  storeStruct child state := rfl
  storeArray child state := rfl

theorem unless_refused_strides {Value : Type} {refusal : Fault} {kinds : List NodeKind}
    {take : Slots → Except Fault Value × Slots}
    (strides : Slots.inlet.Strides slots (take slots).1 (take slots).2) :
    Slots.inlet.Strides slots (unlessRefused refusal kinds take slots).1
      (unlessRefused refusal kinds take slots).2 := by
  unfold unlessRefused
  split_ifs
  · exact strides
  · exact .inr ⟨⟨refusal, rfl⟩, rfl, rfl⟩

/-- A source that looks before it takes leaves what it refuses. -/
theorem strict_inlet_striding (refusal : Fault) : (strictInlet refusal).Striding where
  value state remaining := unless_refused_strides (inlet_striding.value state remaining)
  skip := inlet_striding.skip
  openStruct state remaining := unless_refused_strides (inlet_striding.openStruct state remaining)
  openArray state remaining := unless_refused_strides (inlet_striding.openArray state remaining)
  storeStruct _ _ := rfl
  storeArray _ _ := rfl

end Slots

section Readings

variable {State : Type} {inlet : Inlet State} {state : State}

theorem read_scalar_strides (striding : inlet.Striding) (decode : AnyValue → Except Fault Val)
    (target : Val) (remaining : inlet.isExhausted state = false) :
    inlet.Strides state (readScalar inlet decode target state).outcome
      (readScalar inlet decode target state).source := by
  have strides := striding.value state remaining
  unfold readScalar
  cases taken : inlet.value state with
  | mk outcome next =>
      rw [taken] at strides
      cases outcome with
      | error fault => exact strides.failed fault
      | ok source =>
          dsimp only
          cases decode source with
          | error fault => exact .inl strides.moved
          | ok value => exact .inl strides.moved

/-- A failure that is absorbed where it has left its element in place is followed by a skip. -/
theorem settle_optional_strides (striding : inlet.Striding) (inner : Ty) (target : Val)
    {content : Reading Val State} (remaining : inlet.isExhausted state = false)
    (strides : inlet.Strides state content.outcome content.source) :
    inlet.Strides state (settleOptional inlet inner target state content).outcome
      (settleOptional inlet inner target state content).source := by
  unfold settleOptional
  cases failed : content.outcome with
  | ok done =>
      rw [failed] at strides
      exact .inl strides.moved
  | error fault =>
      rw [failed] at strides
      dsimp only
      split_ifs with absorbable unused
      · have skips := striding.skip content.source unused.2
        cases taken : inlet.skip content.source with
        | mk outcome next =>
            rw [taken] at skips
            cases outcome with
            | ok done => exact .inl (skips.moved.trans (congrArg (· + 1) unused.1))
            | error fault =>
                rcases skips with moved | ⟨-, unmoved, left⟩
                · exact .inl (moved.trans (congrArg (· + 1) unused.1))
                · exact .inr ⟨⟨fault, rfl⟩, unmoved.trans unused.1,
                    left.trans (unused.2.trans remaining.symm)⟩
      · rcases strides with moved | ⟨-, unmoved, left⟩
        · exact .inl moved
        · exact absurd ⟨unmoved, left.trans remaining⟩ unused
      · exact strides

end Readings

namespace Schema

variable (schema : Schema) (deeper : String → Val → Fields → Reading Val Fields)

/-- Every reading strides over a source whose operations do. The recursion follows a type as far
as it is read at one and the same place. -/
theorem read_at_strides (type : Ty) (target : Val) {State : Type} {inlet : Inlet State}
    (striding : inlet.Striding) {state : State} (remaining : inlet.isExhausted state = false) :
    inlet.Strides state (schema.readAt deeper type target inlet state).outcome
      (schema.readAt deeper type target inlet state).source := by
  have structs := striding.openStruct state remaining
  have arrays := striding.openArray state remaining
  cases type with
  | primitive scalar =>
      rw [readAt]
      exact read_scalar_strides striding _ target remaining
  | string =>
      rw [readAt]
      exact read_scalar_strides striding _ target remaining
  | textual name =>
      rw [readAt]
      exact read_scalar_strides striding _ target remaining
  | enumeration name =>
      rw [readAt]
      exact read_scalar_strides striding _ target remaining
  | record name =>
      rw [readAt]
      split
      · rename_i fault next opened
        rw [opened] at structs
        exact structs.failed fault
      · rename_i child next opened
        rw [opened] at structs
        exact .inl ((striding.storeStruct _ next).trans structs.moved)
  | option inner =>
      rw [readAt, remaining]
      simp only [Bool.false_eq_true, if_false]
      split_ifs
      · exact settle_optional_strides striding inner target remaining
          (read_at_strides inner (schema.default inner) striding remaining)
      · exact striding.skip state remaining
  | sequence kind item =>
      rw [readAt]
      split
      · rename_i fault next opened
        rw [opened] at arrays
        exact arrays.failed fault
      · rename_i child next opened
        rw [opened] at arrays
        exact .inl ((striding.storeArray _ next).trans arrays.moved)
  | map kind key value =>
      rw [readAt]
      cases schema.keyNaming? key with
      | some naming =>
          dsimp only
          split
          · rename_i fault next opened
            rw [opened] at structs
            exact structs.failed fault
          · rename_i child next opened
            rw [opened] at structs
            exact .inl ((striding.storeStruct _ next).trans structs.moved)
      | none =>
          dsimp only
          split
          · rename_i fault next opened
            rw [opened] at arrays
            exact arrays.failed fault
          · rename_i child next opened
            rw [opened] at arrays
            exact .inl ((striding.storeArray _ next).trans arrays.moved)
  | tuple slots =>
      rw [readAt]
      split
      · rename_i fault next opened
        rw [opened] at arrays
        exact arrays.failed fault
      · rename_i child next opened
        rw [opened] at arrays
        exact .inl ((striding.storeArray _ next).trans arrays.moved)
  | boxed inner =>
      rw [readAt]
      exact read_at_strides inner target striding remaining

end Schema

end Marshal
