import Marshal.Step

/-!
# Steps put together

Steps that are put together go on as long as each of them succeeds and stop at the first one that does
not, in the state that it leaves.
-/

namespace Marshal.Step

variable {State : Type} {state : State} {first second : Step State} {steps : List (Step State)}

theorem map_fault_eq (change : Fault → Fault) (step : Step State) (state : State) :
    step.mapFault change state = ((step state).1.mapError change, (step state).2) := by
  unfold mapFault
  rcases step state with ⟨_ | _, next⟩ <;> rfl

theorem map_fault_ok {change : Fault → Fault} {step : Step State}
    (ok : (step.mapFault change state).1 = .ok ()) : (step state).1 = .ok () := by
  unfold mapFault at ok
  split at ok
  · rename_i next done
    rw [done]
  · cases ok

theorem and_then_ok (ok : (first.andThen second state).1 = .ok ()) :
    (first state).1 = .ok () ∧ (second (first state).2).1 = .ok () := by
  unfold andThen at ok
  split at ok
  · rename_i next done
    rw [done]
    exact ⟨rfl, ok⟩
  · cases ok

theorem and_then_goes_on {next : State} (done : first state = (.ok (), next)) :
    first.andThen second state = second next := by
  rw [andThen, done]

theorem and_then_done (step : Step State) : step.andThen done = step := by
  funext state
  unfold andThen
  rcases step state with ⟨_ | _, next⟩ <;> rfl

theorem and_then_assoc (first second third : Step State) :
    (first.andThen second).andThen third = first.andThen (second.andThen third) := by
  funext state
  unfold andThen
  rcases first state with ⟨_ | _, next⟩ <;> rfl

theorem all_cons (step : Step State) (rest : List (Step State)) :
    all (step :: rest) = step.andThen (all rest) := rfl

theorem all_cons_ok {step : Step State} {rest : List (Step State)} {result : State} :
    all (step :: rest) state = (.ok (), result) ↔
      ∃ next, step state = (.ok (), next) ∧ all rest next = (.ok (), result) := by
  rw [all_cons, andThen]
  rcases step state with ⟨_ | _, next⟩ <;> simp

theorem all_ok (ok : (all steps state).1 = .ok ()) :
    ∀ step ∈ steps, ∃ state, (step state).1 = .ok () := by
  induction steps generalizing state with
  | nil => exact nofun
  | cons step rest induction =>
      obtain ⟨first, further⟩ := and_then_ok ok
      rw [List.forall_mem_cons]
      exact ⟨⟨state, first⟩, induction further⟩

theorem all_from_ok {position : Nat} (ok : (allFrom position steps state).1 = .ok ()) :
    ∀ step ∈ steps, ∃ state, (step state).1 = .ok () := by
  induction steps generalizing state position with
  | nil => exact nofun
  | cons step rest induction =>
      obtain ⟨first, further⟩ := and_then_ok ok
      rw [List.forall_mem_cons]
      exact ⟨⟨state, map_fault_ok first⟩, induction further⟩

/-- Steps stop at the first one that fails. -/
theorem all_failed {left : State} {fault : Fault} (failed : all steps state = (.error fault, left)) :
    ∃ before step after next, steps = before ++ step :: after ∧ all before state = (.ok (), next) ∧
      step next = (.error fault, left) := by
  induction steps generalizing state with
  | nil => cases failed
  | cons step rest induction =>
      rw [all_cons, andThen] at failed
      cases first : step state with
      | mk outcome next =>
          rw [first] at failed
          cases outcome with
          | error own =>
              cases failed
              exact ⟨[], step, rest, state, rfl, rfl, first⟩
          | ok done =>
              obtain ⟨before, failing, after, middle, rfl, passed, stopped⟩ := induction failed
              exact ⟨step :: before, failing, after, middle, rfl,
                all_cons_ok.mpr ⟨next, first, passed⟩, stopped⟩

section Maintains

variable {holds : State → Prop} {step : Step State}

/-- That a step leaves a property of the state as it was, also where it fails. -/
def Maintains (holds : State → Prop) (step : Step State) : Prop :=
  ∀ state, holds state → holds (step state).2

theorem done_maintains : Step.done.Maintains holds := fun _ held => held

theorem fail_maintains (fault : Fault) : (Step.fail fault).Maintains holds := fun _ held => held

theorem Maintains.andThen (maintains : first.Maintains holds) (further : second.Maintains holds) :
    (first.andThen second).Maintains holds := by
  intro state held
  have next := maintains state held
  rw [Step.andThen]
  split
  · rename_i left same
    rw [same] at next
    exact further left next
  · rename_i fault left same
    rw [same] at next
    exact next

theorem Maintains.mapFault (maintains : step.Maintains holds) (change : Fault → Fault) :
    (step.mapFault change).Maintains holds := by
  intro state held
  rw [map_fault_eq]
  exact maintains state held

theorem all_maintains (each : ∀ step ∈ steps, step.Maintains holds) :
    (Step.all steps).Maintains holds := by
  induction steps with
  | nil => exact done_maintains
  | cons step rest induction =>
      rw [List.forall_mem_cons] at each
      exact each.1.andThen (induction each.2)

theorem all_from_maintains (each : ∀ step ∈ steps, step.Maintains holds) (position : Nat) :
    (Step.allFrom position steps).Maintains holds := by
  induction steps generalizing position with
  | nil => exact done_maintains
  | cons step rest induction =>
      rw [List.forall_mem_cons] at each
      exact (each.1.mapFault _).andThen (induction each.2 (position + 1))

end Maintains

end Marshal.Step
