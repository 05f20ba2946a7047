import Marshal.Proofs.Value.Portions

/-!
# Filling some of several portions

Portions that lie apart can be filled in any order, and each is filled as if it were the only one. So
where filling one a second time changes nothing, filling two selections of them one after the other is
filling whatever is in either.
-/

namespace Marshal

namespace Portion

variable {portion first second : Portion} {portions : List Portion} {whole middle result : Val}

/-- Filling portions leaves what lies apart from them, whether or not it comes to its end. -/
theorem all_filled_beside {trail : Trail} (apart : ∀ portion ∈ portions, portion.trail.Apart trail)
    (whole : Val) :
    (Step.all (portions.map filled) whole).2.at? trail = whole.at? trail := by
  have each : ∀ step ∈ portions.map filled,
      step.Maintains fun value => value.at? trail = whole.at? trail :=
    List.forall_mem_map.mpr fun portion inside value same =>
      (Val.at_overwrite_apart (apart portion inside) value _).trans same
  exact Step.all_maintains each whole rfl

theorem filled_swaps (apart : first.trail.Apart second.trail)
    (one : first.filled whole = (.ok (), middle)) (other : second.filled middle = (.ok (), result)) :
    ∃ between, second.filled whole = (.ok (), between) ∧
      first.filled between = (.ok (), result) := by
  obtain ⟨oneDone, rfl⟩ := Prod.mk.inj one
  obtain ⟨otherDone, rfl⟩ := Prod.mk.inj other
  rw [Val.at_overwrite_apart apart] at otherDone
  refine ⟨_, Prod.ext otherDone rfl, ?_⟩
  simp only [filled, Val.at_overwrite_apart apart, Val.at_overwrite_apart apart.symm, oneDone,
    Val.overwrite_comm apart]

theorem all_filled_swaps (apart : ∀ other ∈ portions, portion.trail.Apart other.trail)
    (earlier : Step.all (portions.map filled) whole = (.ok (), middle))
    (last : portion.filled middle = (.ok (), result)) :
    ∃ between, portion.filled whole = (.ok (), between) ∧
      Step.all (portions.map filled) between = (.ok (), result) := by
  induction portions generalizing whole with
  | nil =>
      cases earlier
      exact ⟨result, last, rfl⟩
  | cons other rest induction =>
      rw [List.forall_mem_cons] at apart
      obtain ⟨next, own, further⟩ := Step.all_cons_ok.mp earlier
      obtain ⟨behind, moved, rests⟩ := induction apart.2 further
      obtain ⟨between, begun, others⟩ := filled_swaps apart.1.symm own moved
      exact ⟨between, begun, Step.all_cons_ok.mpr ⟨behind, others, rests⟩⟩

/-- That filling a portion of some values gives such a value again, and filling it once more changes
nothing. -/
def Lasts (portion : Portion) (kept : Val → Prop) : Prop :=
  ∀ whole result, kept whole → portion.filled whole = (.ok (), result) →
    kept result ∧ portion.filled result = (.ok (), result)

/-- The items are gone through in their order. What the second selection fills of an item is moved to
where the first has come to it. -/
theorem filled_either {Item : Type} {items : List Item} {portion : Item → Portion}
    (apart : items.Pairwise fun first second => (portion first).trail.Apart (portion second).trail)
    {kept : Val → Prop} (lasts : ∀ item ∈ items, (portion item).Lasts kept) (held : kept whole)
    (some others : Item → Bool)
    (earlier : Step.all (((items.filter some).map portion).map filled) whole = (.ok (), middle))
    (later : Step.all (((items.filter others).map portion).map filled) middle = (.ok (), result)) :
    Step.all (((items.filter fun item => some item || others item).map portion).map filled) whole =
      (.ok (), result) := by
  induction items generalizing whole middle with
  | nil =>
      cases earlier
      exact later
  | cons item rest induction =>
      obtain ⟨ownApart, restApart⟩ := List.pairwise_cons.mp apart
      rw [List.forall_mem_cons] at lasts
      have beside : ∀ other ∈ (rest.filter some).map portion,
          (portion item).trail.Apart other.trail :=
        List.forall_mem_map.mpr fun other inside => ownApart other (List.mem_of_mem_filter inside)
      have further {whole middle : Val} := @induction whole middle restApart lasts.2
      cases isFirst : some item with
      | false =>
          rw [List.filter_cons_of_neg (by simp [isFirst])] at earlier
          cases isSecond : others item with
          | false =>
              rw [List.filter_cons_of_neg (by simp [isSecond])] at later
              rw [List.filter_cons_of_neg (by simp [isFirst, isSecond])]
              exact further held earlier later
          | true =>
              rw [List.filter_cons_of_pos isSecond] at later
              rw [List.filter_cons_of_pos (by simp [isSecond])]
              obtain ⟨next, own, later⟩ := Step.all_cons_ok.mp later
              obtain ⟨between, moved, earlier⟩ := all_filled_swaps beside earlier own
              have still := (lasts.1 whole between held moved).1
              exact Step.all_cons_ok.mpr ⟨between, moved, further still earlier later⟩
      | true =>
          rw [List.filter_cons_of_pos isFirst] at earlier
          rw [List.filter_cons_of_pos (by simp [isFirst])]
          obtain ⟨next, own, earlier⟩ := Step.all_cons_ok.mp earlier
          obtain ⟨still, same⟩ := lasts.1 whole next held own
          refine Step.all_cons_ok.mpr ⟨next, own, ?_⟩
          cases isSecond : others item with
          | false =>
              rw [List.filter_cons_of_neg (by simp [isSecond])] at later
              exact further still earlier later
          | true =>
              rw [List.filter_cons_of_pos isSecond] at later
              obtain ⟨again, repeated, later⟩ := Step.all_cons_ok.mp later
              obtain ⟨between, moved, earlier⟩ := all_filled_swaps beside earlier repeated
              obtain ⟨-, rfl⟩ := Prod.mk.inj (same.symm.trans moved)
              exact further still earlier later

end Portion

end Marshal
