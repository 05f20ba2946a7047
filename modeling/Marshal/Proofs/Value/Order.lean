import Marshal.Val
import Mathlib.Tactic

/-!
# The order of map keys

Values are ordered linearly: by their kinds first, then by what they hold. So entries that are added
one after the other at their places in key order come to stand in that order, with the last value
of each key.
-/

namespace Marshal.Val

/-- Two values of one kind. -/
inductive Paired : Val → Val → Prop
  | bool (left right : Bool) : Paired (.bool left) (.bool right)
  | int (left right : Int) : Paired (.int left) (.int right)
  | single (left right : Number.Single) : Paired (.single left) (.single right)
  | double (left right : Number.Double) : Paired (.double left) (.double right)
  | text (left right : String) : Paired (.text left) (.text right)
  | enumerator (left right : Int) : Paired (.enumerator left) (.enumerator right)
  | absent : Paired .absent .absent
  | present (left right : Val) : Paired (.present left) (.present right)
  | list (left right : List Val) : Paired (.list left) (.list right)
  | map (left right : List (Val × Val)) : Paired (.map left) (.map right)
  | tuple (left right : List Val) : Paired (.tuple left) (.tuple right)
  | record (left right : List (String × Val)) : Paired (.record left) (.record right)

theorem paired_of_rank {left right : Val} (same : left.rank = right.rank) : Paired left right := by
  cases left <;> cases right <;> first | constructor | cases same

/-- Values of different kinds are ordered by their kinds. -/
theorem order_ranked {left right : Val} (different : left.rank ≠ right.rank) :
    order left right = compare left.rank right.rank := by
  cases left <;> cases right <;> first | exact absurd rfl different | simp only [order]

mutual

theorem order_swap (left right : Val) : order left right = (order right left).swap := by
  by_cases same : left.rank = right.rank
  · cases paired_of_rank same with
    | bool left right =>
        rw [order, order]
        exact Std.OrientedCmp.eq_swap
    | int left right =>
        rw [order, order]
        exact Std.OrientedCmp.eq_swap
    | single left right =>
        rw [order, order]
        exact Std.OrientedCmp.eq_swap
    | double left right =>
        rw [order, order]
        exact Std.OrientedCmp.eq_swap
    | text left right =>
        rw [order, order]
        exact Std.OrientedCmp.eq_swap
    | enumerator left right =>
        rw [order, order]
        exact Std.OrientedCmp.eq_swap
    | absent =>
        rw [order]
        rfl
    | present left right =>
        rw [order, order]
        exact order_swap left right
    | list left right =>
        rw [order, order]
        exact order_items_swap left right
    | map left right =>
        rw [order, order]
        exact order_entries_swap left right
    | tuple left right =>
        rw [order, order]
        exact order_items_swap left right
    | record left right =>
        rw [order, order]
        exact order_fields_swap left right
  · rw [order_ranked same, order_ranked (Ne.symm same)]
    exact Std.OrientedCmp.eq_swap
termination_by sizeOf left

theorem order_items_swap (left right : List Val) :
    orderItems left right = (orderItems right left).swap := by
  cases left with
  | nil => cases right <;> simp [orderItems]
  | cons first rest =>
      cases right with
      | nil => simp [orderItems]
      | cons other others =>
          rw [orderItems, orderItems, Ordering.swap_then, ← order_swap first other,
            ← order_items_swap rest others]
termination_by sizeOf left

theorem order_entries_swap (left right : List (Val × Val)) :
    orderEntries left right = (orderEntries right left).swap := by
  cases left with
  | nil => cases right <;> simp [orderEntries]
  | cons first rest =>
      cases right with
      | nil => simp [orderEntries]
      | cons other others =>
          obtain ⟨key, value⟩ := first
          obtain ⟨otherKey, otherValue⟩ := other
          rw [orderEntries, orderEntries, Ordering.swap_then, Ordering.swap_then,
            ← order_swap key otherKey, ← order_swap value otherValue,
            ← order_entries_swap rest others]
termination_by sizeOf left

theorem order_fields_swap (left right : List (String × Val)) :
    orderFields left right = (orderFields right left).swap := by
  cases left with
  | nil => cases right <;> simp [orderFields]
  | cons first rest =>
      cases right with
      | nil => simp [orderFields]
      | cons other others =>
          obtain ⟨name, value⟩ := first
          obtain ⟨otherName, otherValue⟩ := other
          rw [orderFields, orderFields, Ordering.swap_then, Ordering.swap_then,
            ← Std.OrientedCmp.eq_swap, ← order_swap value otherValue,
            ← order_fields_swap rest others]
termination_by sizeOf left

end

mutual

theorem eq_of_order {left right : Val} (same : order left right = .eq) : left = right := by
  have ranks : left.rank = right.rank := by
    by_contra different
    rw [order_ranked different, Std.LawfulEqCmp.compare_eq_iff_eq] at same
    exact different same
  cases paired_of_rank ranks with
  | bool left right =>
      rw [order, Std.LawfulEqCmp.compare_eq_iff_eq] at same
      rw [same]
  | int left right =>
      rw [order, Std.LawfulEqCmp.compare_eq_iff_eq] at same
      rw [same]
  | single left right =>
      rw [order, Std.LawfulEqCmp.compare_eq_iff_eq] at same
      exact congrArg (fun bits => single ⟨bits⟩) same
  | double left right =>
      rw [order, Std.LawfulEqCmp.compare_eq_iff_eq] at same
      exact congrArg (fun bits => double ⟨bits⟩) same
  | text left right =>
      rw [order, Std.LawfulEqCmp.compare_eq_iff_eq] at same
      rw [same]
  | enumerator left right =>
      rw [order, Std.LawfulEqCmp.compare_eq_iff_eq] at same
      rw [same]
  | absent => rfl
  | present left right =>
      rw [order] at same
      exact congrArg present (eq_of_order same)
  | list left right =>
      rw [order] at same
      exact congrArg list (eq_of_order_items same)
  | map left right =>
      rw [order] at same
      exact congrArg map (eq_of_order_entries same)
  | tuple left right =>
      rw [order] at same
      exact congrArg tuple (eq_of_order_items same)
  | record left right =>
      rw [order] at same
      exact congrArg record (eq_of_order_fields same)
termination_by sizeOf left

theorem eq_of_order_items {left right : List Val} (same : orderItems left right = .eq) :
    left = right := by
  cases left with
  | nil => cases right <;> simp [orderItems] at same ⊢
  | cons first rest =>
      cases right with
      | nil => simp [orderItems] at same
      | cons other others =>
          rw [orderItems, Ordering.then_eq_eq] at same
          rw [eq_of_order same.1, eq_of_order_items same.2]
termination_by sizeOf left

theorem eq_of_order_entries {left right : List (Val × Val)} (same : orderEntries left right = .eq) :
    left = right := by
  match left, right with
  | [], [] => rfl
  | [], _ :: _ => simp [orderEntries] at same
  | _ :: _, [] => simp [orderEntries] at same
  | (key, value) :: rest, (otherKey, otherValue) :: others =>
      rw [orderEntries, Ordering.then_eq_eq, Ordering.then_eq_eq] at same
      rw [eq_of_order same.1.1, eq_of_order same.1.2, eq_of_order_entries same.2]
termination_by sizeOf left

theorem eq_of_order_fields {left right : List (String × Val)} (same : orderFields left right = .eq) :
    left = right := by
  match left, right with
  | [], [] => rfl
  | [], _ :: _ => simp [orderFields] at same
  | _ :: _, [] => simp [orderFields] at same
  | (name, value) :: rest, (otherName, otherValue) :: others =>
      rw [orderFields, Ordering.then_eq_eq, Ordering.then_eq_eq,
        Std.LawfulEqCmp.compare_eq_iff_eq] at same
      rw [same.1.1, eq_of_order same.1.2, eq_of_order_fields same.2]
termination_by sizeOf left

end

/-- Greater kinds are not less. -/
theorem rank_le_of_lt {left right : Val} (less : order left right = .lt) : left.rank ≤ right.rank := by
  by_contra greater
  rw [order_ranked (by omega), Nat.compare_eq_lt] at less
  omega

/-- The first difference decides, and it goes on from one pair to the next. -/
theorem then_trans {first second both firstRest secondRest bothRest : Ordering}
    (less : first = .lt → second = .lt → both = .lt) (left : first = .eq → both = second)
    (right : second = .eq → both = first)
    (rest : firstRest = .lt → secondRest = .lt → bothRest = .lt)
    (before : first.then firstRest = .lt) (after : second.then secondRest = .lt) :
    both.then bothRest = .lt := by
  rw [Ordering.then_eq_lt] at before after ⊢
  rcases before with before | ⟨equal, before⟩
  · rcases after with after | ⟨same, -⟩
    · exact .inl (less before after)
    · exact .inl ((right same).trans before)
  · rcases after with after | ⟨same, after⟩
    · exact .inl ((left equal).trans after)
    · exact .inr ⟨(left equal).trans same, rest before after⟩

mutual

theorem order_trans {left middle right : Val} (before : order left middle = .lt)
    (after : order middle right = .lt) : order left right = .lt := by
  have lower := rank_le_of_lt before
  have upper := rank_le_of_lt after
  by_cases same : left.rank = right.rank
  · have first := paired_of_rank (le_antisymm lower (same ▸ upper))
    have second := paired_of_rank (le_antisymm upper (same ▸ lower))
    cases first with
    | bool left middle =>
        cases second with
        | bool _ right =>
            rw [order] at before after ⊢
            exact Std.TransCmp.lt_trans before after
    | int left middle =>
        cases second with
        | int _ right =>
            rw [order] at before after ⊢
            exact Std.TransCmp.lt_trans before after
    | single left middle =>
        cases second with
        | single _ right =>
            rw [order] at before after ⊢
            exact Std.TransCmp.lt_trans before after
    | double left middle =>
        cases second with
        | double _ right =>
            rw [order] at before after ⊢
            exact Std.TransCmp.lt_trans before after
    | text left middle =>
        cases second with
        | text _ right =>
            rw [order] at before after ⊢
            exact Std.TransCmp.lt_trans before after
    | enumerator left middle =>
        cases second with
        | enumerator _ right =>
            rw [order] at before after ⊢
            exact Std.TransCmp.lt_trans before after
    | absent =>
        rw [order] at before
        cases before
    | present left middle =>
        cases second with
        | present _ right =>
            rw [order] at before after ⊢
            exact order_trans before after
    | list left middle =>
        cases second with
        | list _ right =>
            rw [order] at before after ⊢
            exact order_items_trans before after
    | map left middle =>
        cases second with
        | map _ right =>
            rw [order] at before after ⊢
            exact order_entries_trans before after
    | tuple left middle =>
        cases second with
        | tuple _ right =>
            rw [order] at before after ⊢
            exact order_items_trans before after
    | record left middle =>
        cases second with
        | record _ right =>
            rw [order] at before after ⊢
            exact order_fields_trans before after
  · rw [order_ranked same, Nat.compare_eq_lt]
    omega
termination_by sizeOf left

theorem order_items_trans {left middle right : List Val} (before : orderItems left middle = .lt)
    (after : orderItems middle right = .lt) : orderItems left right = .lt := by
  match left, middle, right with
  | [], [], _ => simp [orderItems] at before
  | _ :: _, [], _ => simp [orderItems] at before
  | _, _ :: _, [] => simp [orderItems] at after
  | [], _ :: _, _ :: _ => simp [orderItems]
  | first :: lefts, second :: middles, third :: rights =>
      rw [orderItems] at before after ⊢
      exact then_trans (fun less further => order_trans less further)
        (fun same => by rw [eq_of_order same]) (fun same => by rw [eq_of_order same])
        (fun less further => order_items_trans less further) before after
termination_by sizeOf left

theorem order_entries_trans {left middle right : List (Val × Val)}
    (before : orderEntries left middle = .lt) (after : orderEntries middle right = .lt) :
    orderEntries left right = .lt := by
  match left, middle, right with
  | [], [], _ => simp [orderEntries] at before
  | _ :: _, [], _ => simp [orderEntries] at before
  | _, _ :: _, [] => simp [orderEntries] at after
  | [], _ :: _, _ :: _ => simp [orderEntries]
  | (firstKey, first) :: lefts, (secondKey, second) :: middles, (thirdKey, third) :: rights =>
      rw [orderEntries] at before after ⊢
      refine then_trans (fun less further => ?_) (fun same => ?_) (fun same => ?_)
        (fun less further => order_entries_trans less further) before after
      · exact then_trans (fun less further => order_trans less further)
          (fun same => by rw [eq_of_order same]) (fun same => by rw [eq_of_order same])
          (fun less further => order_trans less further) less further
      · rw [Ordering.then_eq_eq] at same
        rw [eq_of_order same.1, eq_of_order same.2]
      · rw [Ordering.then_eq_eq] at same
        rw [eq_of_order same.1, eq_of_order same.2]
termination_by sizeOf left

theorem order_fields_trans {left middle right : List (String × Val)}
    (before : orderFields left middle = .lt) (after : orderFields middle right = .lt) :
    orderFields left right = .lt := by
  match left, middle, right with
  | [], [], _ => simp [orderFields] at before
  | _ :: _, [], _ => simp [orderFields] at before
  | _, _ :: _, [] => simp [orderFields] at after
  | [], _ :: _, _ :: _ => simp [orderFields]
  | (firstName, first) :: lefts, (secondName, second) :: middles, (thirdName, third) :: rights =>
      rw [orderFields] at before after ⊢
      refine then_trans (fun less further => ?_) (fun same => ?_) (fun same => ?_)
        (fun less further => order_fields_trans less further) before after
      · exact then_trans (fun less further => Std.TransCmp.lt_trans less further)
          (fun same => by rw [Std.LawfulEqCmp.compare_eq_iff_eq.mp same])
          (fun same => by rw [Std.LawfulEqCmp.compare_eq_iff_eq.mp same])
          (fun less further => order_trans less further) less further
      · rw [Ordering.then_eq_eq, Std.LawfulEqCmp.compare_eq_iff_eq] at same
        rw [same.1, eq_of_order same.2]
      · rw [Ordering.then_eq_eq, Std.LawfulEqCmp.compare_eq_iff_eq] at same
        rw [same.1, eq_of_order same.2]
termination_by sizeOf left

end

section Entries

variable {entries : List (Val × Val)} {key value : Val} {entry : Val × Val}

/-- That entries stand in key order, each key once. -/
def Sorted (entries : List (Val × Val)) : Prop :=
  entries.Pairwise fun earlier later => order earlier.1 later.1 = .lt

theorem key_different {known : Val} (less : order key known = .lt) : known ≠ key := by
  rintro rfl
  have swapped := order_swap known known
  rw [less] at swapped
  cases swapped

/-- The new entry is there, and of the others those of other keys. -/
theorem mem_insert_entry (sorted : Sorted entries) :
    entry ∈ insertEntry entries key value ↔
      entry = (key, value) ∨ entry ∈ entries ∧ entry.1 ≠ key := by
  induction entries with
  | nil => simp [insertEntry]
  | cons first rest induction =>
      obtain ⟨known, old⟩ := first
      obtain ⟨less, further⟩ := List.pairwise_cons.mp sorted
      rw [insertEntry]
      cases compared : order key known with
      | lt =>
          have different : ∀ other ∈ (known, old) :: rest, other.1 ≠ key := by
            rw [List.forall_mem_cons]
            exact ⟨key_different compared, fun other inside =>
              key_different (order_trans compared (less other inside))⟩
          rw [List.mem_cons]
          exact or_congr_right ⟨fun inside => ⟨inside, different entry inside⟩, And.left⟩
      | eq =>
          obtain rfl := eq_of_order compared
          simp only [List.mem_cons]
          constructor
          · rintro (same | inside)
            · exact .inl same
            · exact .inr ⟨.inr inside, key_different (less entry inside)⟩
          · rintro (same | ⟨rfl | inside, different⟩)
            · exact .inl same
            · exact absurd rfl different
            · exact .inr inside
      | gt =>
          have different : known ≠ key := by
            rw [order_swap, Ordering.swap_eq_gt] at compared
            exact (key_different compared).symm
          simp only [List.mem_cons, induction further]
          constructor
          · rintro (rfl | same | ⟨inside, other⟩)
            · exact .inr ⟨.inl rfl, different⟩
            · exact .inl same
            · exact .inr ⟨.inr inside, other⟩
          · rintro (same | ⟨rfl | inside, other⟩)
            · exact .inr (.inl same)
            · exact .inl rfl
            · exact .inr (.inr ⟨inside, other⟩)

theorem sorted_insert_entry (sorted : Sorted entries) (key value : Val) :
    Sorted (insertEntry entries key value) := by
  induction entries with
  | nil => exact List.pairwise_singleton _ _
  | cons first rest induction =>
      obtain ⟨known, old⟩ := first
      obtain ⟨less, further⟩ := List.pairwise_cons.mp sorted
      rw [insertEntry]
      cases compared : order key known with
      | lt =>
          refine List.pairwise_cons.mpr ⟨?_, sorted⟩
          rw [List.forall_mem_cons]
          exact ⟨compared, fun other inside => order_trans compared (less other inside)⟩
      | eq => exact List.pairwise_cons.mpr ⟨less, further⟩
      | gt =>
          refine List.pairwise_cons.mpr ⟨fun other inside => ?_, induction further⟩
          rcases (mem_insert_entry further).mp inside with rfl | ⟨inside, -⟩
          · rwa [order_swap, Ordering.swap_eq_gt] at compared
          · exact less other inside

/-- That entries are the last ones of their keys among those that have been added, in key order. -/
structure LastOf (added held : List (Val × Val)) : Prop where
  sorted : Sorted held
  last : ∀ key value, (key, value) ∈ held ↔
    ∃ before after, added = before ++ (key, value) :: after ∧ ∀ later ∈ after, later.1 ≠ key

/-- The induction is on the entries from the last one back. -/
theorem insert_all_last (added : List (Val × Val)) :
    LastOf added (added.foldl (fun entries entry => insertEntry entries entry.1 entry.2) []) := by
  induction added using List.reverseRecOn with
  | nil => exact ⟨.nil, by simp⟩
  | append_singleton added entry induction =>
      obtain ⟨sorted, last⟩ := induction
      rw [List.foldl_append]
      refine ⟨sorted_insert_entry sorted entry.1 entry.2, fun key value => ?_⟩
      simp only [List.foldl_cons, List.foldl_nil, mem_insert_entry sorted, last]
      constructor
      · rintro (own | ⟨⟨before, after, rfl, others⟩, different⟩)
        · exact ⟨added, [], by rw [own], by simp⟩
        · refine ⟨before, after ++ [entry], by simp, fun later inside => ?_⟩
          rcases List.mem_append.mp inside with inside | inside
          · exact others later inside
          · rw [List.mem_singleton.mp inside]
            exact Ne.symm different
      · rintro ⟨before, after, split, others⟩
        rcases List.eq_nil_or_concat after with rfl | ⟨after, final, rfl⟩
        · exact .inl (List.singleton_inj.mp (List.append_inj' split rfl).2).symm
        · have split : added ++ [entry] = (before ++ (key, value) :: after) ++ [final] := by
            simpa using split
          obtain ⟨rfl, own⟩ := List.append_inj' split rfl
          obtain rfl := List.singleton_inj.mp own
          simp only [List.concat_eq_append, List.forall_mem_append, List.forall_mem_singleton] at others
          exact .inr ⟨⟨before, after, rfl, others.1⟩, Ne.symm others.2⟩

end Entries

end Marshal.Val
