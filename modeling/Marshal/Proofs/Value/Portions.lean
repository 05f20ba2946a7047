import Marshal.Proofs.Value.Shape
import Marshal.Proofs.Writing.Steps

/-!
# Filling a value portion by portion

A value is filled by steps on the parts that trails lead to, one after the other until one fails.
Where the trails lie apart, each step finds its part as it was at first, and what it makes of it
stays. So after a failure the portions before it are filled, and whatever lies apart from these and
from the failed one is as it was.
-/

namespace Marshal

namespace Trail

theorem Apart.symm {left right : Trail} (apart : left.Apart right) : Trail.Apart right left := by
  induction left generalizing right with
  | nil => exact apart.elim
  | cons segment left induction =>
      cases right with
      | nil => exact apart.elim
      | cons other right => exact fun same => induction (apart same.symm)

theorem Apart.append {left right : Trail} (apart : left.Apart right) (rest : Trail) :
    Trail.Apart (left ++ rest) right := by
  induction left generalizing right with
  | nil => exact apart.elim
  | cons segment left induction =>
      cases right with
      | nil => exact apart.elim
      | cons other right => exact fun same => induction (apart same)

theorem apart_under {left right : Trail} (segment : Segment) :
    Trail.Apart (segment :: left) (segment :: right) ↔ left.Apart right :=
  ⟨fun apart => apart rfl, fun apart _ => apart⟩

theorem apart_cases (left right : Trail) :
    left.Apart right ∨ (∃ rest, right = left ++ rest) ∨ ∃ rest, left = right ++ rest := by
  induction left generalizing right with
  | nil => exact .inr (.inl ⟨right, rfl⟩)
  | cons segment left induction =>
      cases right with
      | nil => exact .inr (.inr ⟨_, rfl⟩)
      | cons other right =>
          by_cases same : segment = other
          · subst same
            rw [apart_under]
            exact (induction right).imp_right (Or.imp (Exists.imp fun _ => congrArg _)
              (Exists.imp fun _ => congrArg _))
          · exact .inl fun equal => absurd equal same

end Trail

namespace Val

/-- What a trail leads to through records and tuples. -/
def at? : Val → Trail → Option Val
  | value, [] => some value
  | value, segment :: rest => (value.part? segment).bind fun part => part.at? rest

/-- Paths lie apart as the trails along their fields do. -/
theorem apart_fields {left right : Path} :
    Trail.Apart (left.map Segment.field) (right.map Segment.field) ↔ Apart left right := by
  induction left generalizing right with
  | nil => simp [Trail.Apart, Apart]
  | cons name left induction =>
      cases right with
      | nil => simp [Trail.Apart, Apart]
      | cons other right =>
          simp only [List.map_cons, Trail.Apart, Segment.field.injEq, induction, Apart,
            List.cons_prefix_cons]
          grind

theorem at_fields (value : Val) (path : Path) :
    value.at? (path.map Segment.field) = value.get? path := by
  induction path generalizing value with
  | nil => cases value <;> rfl
  | cons name path induction =>
      rw [get_part, List.map_cons, at?]
      simp only [induction]

theorem at_append (value : Val) (trail rest : Trail) :
    value.at? (trail ++ rest) = (value.at? trail).bind fun part => part.at? rest := by
  induction trail generalizing value with
  | nil => rfl
  | cons segment trail induction =>
      rw [List.cons_append, at?, at?]
      cases value.part? segment with
      | none => rfl
      | some part => exact induction part

theorem at_overwrite_own {value old : Val} {trail : Trail} (found : value.at? trail = some old)
    (part : Val) : (value.overwrite trail part).at? trail = some part := by
  induction trail generalizing value with
  | nil => rfl
  | cons segment trail induction =>
      obtain ⟨inner, known, further⟩ := Option.bind_eq_some_iff.mp found
      rw [overwrite, known, at?, part_replaced known, Option.bind_some]
      exact induction further

theorem at_overwrite_apart {left right : Trail} (apart : left.Apart right) (value part : Val) :
    (value.overwrite left part).at? right = value.at? right := by
  induction left generalizing right value with
  | nil => exact apart.elim
  | cons segment left induction =>
      cases right with
      | nil => exact apart.elim
      | cons other right =>
          rw [overwrite]
          cases known : value.part? segment with
          | none => rfl
          | some inner =>
              rw [at?, at?]
              by_cases same : segment = other
              · subst same
                rw [part_replaced known, known]
                exact induction (apart rfl) inner
              · rw [part_beside value same]

/-- Whatever is overwritten inside of a part, the part is still there. -/
theorem at_overwrite_above {value : Val} {trail : Trail} {inner : Val}
    (found : value.at? trail = some inner) (rest : Trail) (part : Val) :
    (value.overwrite (trail ++ rest) part).at? trail = some (inner.overwrite rest part) := by
  induction trail generalizing value with
  | nil =>
      cases found
      rfl
  | cons segment trail induction =>
      obtain ⟨middle, known, further⟩ := Option.bind_eq_some_iff.mp found
      rw [List.cons_append, overwrite, known, at?, part_replaced known, Option.bind_some]
      exact induction further

/-- Overwriting places of what a trail leads to is overwriting them in the whole. -/
theorem overwritten_under (value fallback : Val) (trail : Trail) (parts : List (Trail × Val)) :
    value.overwrite trail (((value.at? trail).getD fallback).overwriteAll parts) =
      value.overwriteAll (trail.foldr beneath parts) := by
  induction trail generalizing value with
  | nil => rfl
  | cons segment trail induction =>
      rw [overwrite, at?, List.foldr_cons, overwrite_all_beneath]
      cases value.part? segment with
      | none => rfl
      | some part => exact congrArg (value.replacePart segment) (induction part)

theorem mem_foldr_beneath (trail : Trail) {parts : List (Trail × Val)} {part : Trail × Val}
    (inside : part ∈ parts) : (trail ++ part.1, part.2) ∈ trail.foldr beneath parts := by
  induction trail with
  | nil => exact inside
  | cons segment trail induction => exact List.mem_map.mpr ⟨_, induction, rfl⟩

theorem at_overwrite_all_apart {parts : List (Trail × Val)} {trail : Trail}
    (apart : ∀ part ∈ parts, Trail.Apart part.1 trail) (value : Val) :
    (value.overwriteAll parts).at? trail = value.at? trail := by
  induction parts generalizing value with
  | nil => rfl
  | cons part parts induction =>
      rw [List.forall_mem_cons] at apart
      exact (induction apart.2 _).trans (at_overwrite_apart apart.1 value part.2)

/-- What is overwritten at last stands where it has been put, whatever stood there before. -/
theorem at_overwrite_all_own {parts : List (Trail × Val)} {trail : Trail}
    (inside : ∃ part ∈ parts, part.1 = trail)
    (apart : ∀ part ∈ parts, part.1 = trail ∨ Trail.Apart part.1 trail) :
    ∃ result, ∀ value : Val, (∃ old, value.at? trail = some old) →
      (value.overwriteAll parts).at? trail = some result := by
  induction parts with
  | nil => simp at inside
  | cons part parts induction =>
      rw [List.forall_mem_cons] at apart
      have there {value : Val} (present : ∃ old, value.at? trail = some old) :
          ∃ old, (value.overwrite part.1 part.2).at? trail = some old := by
        obtain ⟨old, found⟩ := present
        rcases apart.1 with own | beside
        · rw [own, at_overwrite_own found]
          exact ⟨_, rfl⟩
        · rw [at_overwrite_apart beside, found]
          exact ⟨_, rfl⟩
      by_cases later : ∃ further ∈ parts, further.1 = trail
      · obtain ⟨result, settled⟩ := induction later apart.2
        exact ⟨result, fun value present => settled _ (there present)⟩
      · have own : part.1 = trail := by
          obtain ⟨known, inside, same⟩ := inside
          rcases List.mem_cons.mp inside with rfl | inside
          · exact same
          · exact absurd ⟨known, inside, same⟩ later
        have beside : ∀ further ∈ parts, Trail.Apart further.1 trail := fun further inside =>
          (apart.2 further inside).resolve_left fun same => later ⟨further, inside, same⟩
        refine ⟨part.2, fun value present => ?_⟩
        obtain ⟨old, found⟩ := present
        have first : value.overwriteAll (part :: parts) =
            (value.overwrite trail part.2).overwriteAll parts := by rw [← own]; rfl
        rw [first, at_overwrite_all_apart beside, at_overwrite_own found]

end Val

/-- A step on the part of a value that a trail leads to. -/
structure Portion where
  trail : Trail
  /-- What the step starts from where nothing is. -/
  fallback : Val
  step : Step Val

namespace Portion

/-- The step on the part, as one on the whole. -/
def filled (portion : Portion) : Step Val := fun whole =>
  let (outcome, part) := portion.step ((whole.at? portion.trail).getD portion.fallback)
  (outcome, whole.overwrite portion.trail part)

def AllApart (portions : List Portion) : Prop :=
  portions.Pairwise fun first second => first.trail.Apart second.trail

/-- That what a step makes of its part of a first value is its part of a second one. -/
def Leaves (portion : Portion) (outcome : Except Fault Unit) (first second : Val) : Prop :=
  ∃ old new, first.at? portion.trail = some old ∧ portion.step old = (outcome, new) ∧
    second.at? portion.trail = some new

variable {portion : Portion} {portions : List Portion} {whole result : Val}
  {outcome : Except Fault Unit}

theorem filled_leaves (present : ∃ part, whole.at? portion.trail = some part)
    (run : portion.filled whole = (outcome, result)) :
    portion.Leaves outcome whole result ∧
      ∀ trail, portion.trail.Apart trail → result.at? trail = whole.at? trail := by
  obtain ⟨part, found⟩ := present
  simp only [filled, found, Option.getD_some] at run
  cases run
  exact ⟨⟨part, _, found, rfl, Val.at_overwrite_own found _⟩,
    fun trail apart => Val.at_overwrite_apart apart whole _⟩

/-- Portions that lie apart are filled each by itself. -/
theorem all_filled (apart : AllApart portions)
    (present : ∀ portion ∈ portions, ∃ part, whole.at? portion.trail = some part)
    (run : Step.all (portions.map filled) whole = (.ok (), result)) :
    (∀ portion ∈ portions, portion.Leaves (.ok ()) whole result) ∧
      ∀ trail, (∀ portion ∈ portions, portion.trail.Apart trail) →
        result.at? trail = whole.at? trail := by
  induction portions generalizing whole with
  | nil =>
      cases run
      exact ⟨by simp, fun _ _ => rfl⟩
  | cons portion portions induction =>
      obtain ⟨beside, apart⟩ := List.pairwise_cons.mp apart
      rw [List.forall_mem_cons] at present
      rw [List.map_cons, Step.all_cons, Step.andThen] at run
      cases first : portion.filled whole with
      | mk outcome next =>
          rw [first] at run
          cases outcome with
          | error fault => cases run
          | ok done =>
              obtain ⟨own, others⟩ := filled_leaves present.1 first
              have same (other : Portion) (inside : other ∈ portions) :
                  next.at? other.trail = whole.at? other.trail := others _ (beside other inside)
              obtain ⟨further, untouched⟩ :=
                induction apart (fun other inside => same other inside ▸ present.2 other inside) run
              constructor
              · intro other inside
                rcases List.mem_cons.mp inside with rfl | inside
                · obtain ⟨old, new, found, made, left⟩ := own
                  refine ⟨old, new, found, made, ?_⟩
                  rw [untouched _ fun later inside => (beside later inside).symm, left]
                · obtain ⟨old, new, found, made, left⟩ := further other inside
                  exact ⟨old, new, same other inside ▸ found, made, left⟩
              · intro trail clear
                rw [List.forall_mem_cons] at clear
                rw [untouched trail clear.2, others trail clear.1]

/-- A failure leaves the portions before it filled, and what lies apart from these and from its own
portion as it was. -/
theorem all_filled_until {fault : Fault} (apart : AllApart portions)
    (present : ∀ portion ∈ portions, ∃ part, whole.at? portion.trail = some part)
    (run : Step.all (portions.map filled) whole = (.error fault, result)) :
    ∃ before portion after, portions = before ++ portion :: after ∧
      (∀ earlier ∈ before, earlier.Leaves (.ok ()) whole result) ∧
      portion.Leaves (.error fault) whole result ∧
      ∀ trail, (∀ other ∈ before, other.trail.Apart trail) → portion.trail.Apart trail →
        result.at? trail = whole.at? trail := by
  obtain ⟨steps, step, others, next, split, done, failed⟩ := Step.all_failed run
  obtain ⟨before, rest, rfl, rfl, further⟩ := List.map_eq_append_iff.mp split
  obtain ⟨portion, after, rfl, rfl, -⟩ := List.map_eq_cons_iff.mp further
  obtain ⟨earlierApart, -, across⟩ := List.pairwise_append.mp apart
  rw [List.forall_mem_append, List.forall_mem_cons] at present
  obtain ⟨filledBefore, untouched⟩ := all_filled earlierApart present.1 done
  have same : next.at? portion.trail = whole.at? portion.trail :=
    untouched _ fun earlier inside => across earlier inside portion List.mem_cons_self
  obtain ⟨⟨old, new, found, made, left⟩, beside⟩ := filled_leaves (same ▸ present.2.1) failed
  refine ⟨before, portion, after, rfl, ?_, ⟨old, new, same ▸ found, made, left⟩, ?_⟩
  · intro earlier inside
    obtain ⟨old, new, found, made, left⟩ := filledBefore earlier inside
    refine ⟨old, new, found, made, ?_⟩
    rw [beside _ (across earlier inside portion List.mem_cons_self).symm, left]
  · intro trail clear own
    rw [beside trail own, untouched trail clear]

/-- The same of portions that each belong to something. -/
theorem mapped_filled_until {Item : Type} {items : List Item} {portion : Item → Portion} {fault : Fault}
    (apart : AllApart (items.map portion))
    (present : ∀ item ∈ items, ∃ part, whole.at? (portion item).trail = some part)
    (run : Step.all ((items.map portion).map filled) whole = (.error fault, result)) :
    ∃ before item after, items = before ++ item :: after ∧
      (∀ earlier ∈ before, (portion earlier).Leaves (.ok ()) whole result) ∧
      (portion item).Leaves (.error fault) whole result ∧
      (∀ later ∈ after, result.at? (portion later).trail = whole.at? (portion later).trail) ∧
      ∀ trail, (∀ other ∈ before ++ [item], (portion other).trail.Apart trail) →
        result.at? trail = whole.at? trail := by
  have presentAll : ∀ other ∈ items.map portion, ∃ part, whole.at? other.trail = some part :=
    List.forall_mem_map.mpr present
  obtain ⟨portions, own, others, split, earlier, failed, untouched⟩ :=
    all_filled_until apart presentAll run
  obtain ⟨before, rest, rfl, rfl, further⟩ := List.map_eq_append_iff.mp split
  obtain ⟨item, after, rfl, rfl, rfl⟩ := List.map_eq_cons_iff.mp further
  rw [AllApart, List.map_append, List.map_cons] at apart
  obtain ⟨-, ownApart, across⟩ := List.pairwise_append.mp apart
  refine ⟨before, item, after, rfl, fun other inside => earlier _ (List.mem_map_of_mem inside),
    failed, fun later inside => ?_, fun trail clear => ?_⟩
  · have laterInside := List.mem_map_of_mem (f := portion) inside
    apply untouched
    · exact fun first before => across first before _ (List.mem_cons_of_mem _ laterInside)
    · exact (List.pairwise_cons.mp ownApart).1 _ laterInside
  · rw [List.forall_mem_append, List.forall_mem_singleton] at clear
    exact untouched trail (List.forall_mem_map.mpr clear.1) clear.2

end Portion

end Marshal
