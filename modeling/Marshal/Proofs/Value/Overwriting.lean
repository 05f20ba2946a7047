import Marshal.Proofs.Structure.Leaves
import Marshal.Trail

/-!
# Overwriting places inside of a value

What is read in place overwrites parts of a value, some of them perhaps more than once. Overwriting
a place again makes the first time count for nothing, and neither of two places that lie apart sees
what happens to the other. So overwriting the same places with the same parts a second time changes
nothing.
-/

namespace Marshal

/-- Two trails that part from each other. -/
def Trail.Apart : Trail → Trail → Prop
  | first :: left, second :: right => first = second → Apart left right
  | _, _ => False

namespace Val

/-- A field of a record, or a slot of a tuple. -/
def part? : Val → Segment → Option Val
  | .record fields, .field name => lookup fields name
  | .tuple slots, .index position => slots[position]?
  | _, _ => none

def replacePart : Val → Segment → Val → Val
  | .record fields, .field name, part => .record (update fields name part)
  | .tuple slots, .index position, part => .tuple (slots.set position part)
  | value, _, _ => value

/-- Replaces what a trail leads to through records and tuples. A trail that leads nowhere changes
nothing. -/
def overwrite : Val → Trail → Val → Val
  | _, [], replacement => replacement
  | value, segment :: rest, replacement =>
      match value.part? segment with
      | some part => value.replacePart segment (overwrite part rest replacement)
      | none => value

def overwriteAll (value : Val) (parts : List (Trail × Val)) : Val :=
  parts.foldl (fun value part => value.overwrite part.1 part.2) value

/-- Places inside of a part, seen from the whole. -/
def beneath (segment : Segment) (parts : List (Trail × Val)) : List (Trail × Val) :=
  parts.map fun part => (segment :: part.1, part.2)

section Parts

variable {value old : Val} {segment other : Segment}

theorem part_replaced (found : value.part? segment = some old) (part : Val) :
    (value.replacePart segment part).part? segment = some part := by
  cases value with
  | record fields =>
      cases segment with
      | field name => exact lookup_update_own found part
      | index position => cases found
  | tuple slots =>
      cases segment with
      | field name => cases found
      | index position =>
          obtain ⟨inside, -⟩ := List.getElem?_eq_some_iff.mp found
          exact List.getElem?_set_self inside
  | _ => cases found

theorem part_beside (value : Val) (different : segment ≠ other) (part : Val) :
    (value.replacePart segment part).part? other = value.part? other := by
  cases value with
  | record fields =>
      cases segment with
      | index position => rfl
      | field name =>
          cases other with
          | index position => rfl
          | field wanted => exact lookup_update_other (fun same => different (congrArg _ same)) part
  | tuple slots =>
      cases segment with
      | field name => rfl
      | index position =>
          cases other with
          | field name => rfl
          | index wanted => exact List.getElem?_set_ne fun same => different (congrArg _ same)
  | _ => rfl

theorem replace_replace (first second : Val) :
    (value.replacePart segment first).replacePart segment second =
      value.replacePart segment second := by
  cases value with
  | record fields =>
      cases segment with
      | field name => exact congrArg record (update_update fields name first second)
      | index position => rfl
  | tuple slots =>
      cases segment with
      | field name => rfl
      | index position => exact congrArg tuple (List.set_set first)
  | _ => rfl

theorem replace_own (found : value.part? segment = some old) :
    value.replacePart segment old = value := by
  cases value with
  | record fields =>
      cases segment with
      | field name => exact congrArg record (update_own found)
      | index position => rfl
  | tuple slots =>
      cases segment with
      | field name => rfl
      | index position =>
          obtain ⟨inside, rfl⟩ := List.getElem?_eq_some_iff.mp found
          exact congrArg tuple (List.set_getElem_self inside)
  | _ => rfl

theorem update_comm {fields : List (String × Val)} {name other : String} (different : name ≠ other)
    (first second : Val) : update (update fields name first) other second =
      update (update fields other second) name first := by
  induction fields with
  | nil => rfl
  | cons field rest induction =>
      obtain ⟨known, old⟩ := field
      by_cases own : known = name
      · simp [update, own, different]
      · by_cases beside : known = other <;> simp [update, own, beside, induction, Ne.symm different]

theorem replace_comm (different : segment ≠ other) (first second : Val) :
    (value.replacePart segment first).replacePart other second =
      (value.replacePart other second).replacePart segment first := by
  cases value with
  | record fields =>
      cases segment with
      | index position => cases other <;> rfl
      | field name =>
          cases other with
          | index position => rfl
          | field wanted =>
              exact congrArg record (update_comm (fun same => different (congrArg _ same)) first second)
  | tuple slots =>
      cases segment with
      | field name => cases other <;> rfl
      | index position =>
          cases other with
          | field name => rfl
          | index wanted =>
              exact congrArg tuple
                (List.set_comm first second fun same => different (congrArg _ same))
  | _ => rfl

end Parts

theorem overwrite_overwrite (value : Val) (trail : Trail) (first second : Val) :
    (value.overwrite trail first).overwrite trail second = value.overwrite trail second := by
  induction trail generalizing value with
  | nil => rfl
  | cons segment rest induction =>
      cases found : value.part? segment with
      | none => simp only [overwrite, found]
      | some part => simp only [overwrite, found, part_replaced found, replace_replace, induction]

theorem overwrite_comm {left right : Trail} (apart : left.Apart right) (value first second : Val) :
    (value.overwrite left first).overwrite right second =
      (value.overwrite right second).overwrite left first := by
  induction left generalizing right value with
  | nil => exact apart.elim
  | cons segment left induction =>
      cases right with
      | nil => exact apart.elim
      | cons other right =>
          by_cases same : segment = other
          · subst same
            cases found : value.part? segment with
            | none => simp only [overwrite, found]
            | some part =>
                simp only [overwrite, found, part_replaced found, replace_replace,
                  induction (apart rfl)]
          · have others := part_beside value same
            have own := part_beside value (Ne.symm same)
            cases found : value.part? segment with
            | none =>
                cases beside : value.part? other with
                | none => simp only [overwrite, found, beside]
                | some part => simp only [overwrite, found, beside, own]
            | some part =>
                cases beside : value.part? other with
                | none => simp only [overwrite, found, beside, others]
                | some part =>
                    simp only [overwrite, found, beside, others, own]
                    exact replace_comm same _ _

theorem overwrite_all_append (value : Val) (first second : List (Trail × Val)) :
    value.overwriteAll (first ++ second) = (value.overwriteAll first).overwriteAll second :=
  List.foldl_append

/-- What is overwritten later counts for nothing. -/
theorem overwrite_absorbed {trail : Trail} {parts : List (Trail × Val)}
    (later : ∃ part ∈ parts, part.1 = trail)
    (apart : ∀ part ∈ parts, part.1 = trail ∨ trail.Apart part.1) (value replacement : Val) :
    (value.overwrite trail replacement).overwriteAll parts = value.overwriteAll parts := by
  induction parts generalizing value with
  | nil => simp at later
  | cons part parts induction =>
      rw [List.forall_mem_cons] at apart
      simp only [overwriteAll, List.foldl_cons]
      by_cases own : part.1 = trail
      · rw [own, overwrite_overwrite]
      · rw [overwrite_comm (apart.1.resolve_left own)]
        obtain ⟨further, inside, same⟩ := later
        apply induction ⟨further, ?_, same⟩ apart.2
        rcases List.mem_cons.mp inside with rfl | inside
        · exact absurd same own
        · exact inside

/-- Overwriting the same places with the same parts once more changes nothing. -/
theorem overwrite_all_again {parts : List (Trail × Val)}
    (apart : ∀ first ∈ parts, ∀ second ∈ parts, second.1 = first.1 ∨ Trail.Apart first.1 second.1)
    (value : Val) : (value.overwriteAll parts).overwriteAll parts = value.overwriteAll parts := by
  suffices all : ∀ some ⊆ parts, ∀ value : Val,
      (value.overwriteAll some).overwriteAll parts = value.overwriteAll parts from
    all parts (List.Subset.refl parts) value
  intro some among
  induction some with
  | nil => exact fun _ => rfl
  | cons part some induction =>
      rw [List.cons_subset] at among
      intro value
      have first : value.overwriteAll (part :: some) =
          (value.overwrite part.1 part.2).overwriteAll some := rfl
      rw [first, induction among.2]
      exact overwrite_absorbed ⟨part, among.1, rfl⟩ (apart part among.1) value part.2

theorem overwrite_all_beneath (value : Val) (segment : Segment) (parts : List (Trail × Val)) :
    value.overwriteAll (beneath segment parts) =
      match value.part? segment with
      | some part => value.replacePart segment (part.overwriteAll parts)
      | none => value := by
  induction parts generalizing value with
  | nil =>
      cases found : value.part? segment with
      | none => rfl
      | some part => exact (replace_own found).symm
  | cons part parts induction =>
      have first : value.overwriteAll (beneath segment (part :: parts)) =
          (value.overwrite (segment :: part.1) part.2).overwriteAll (beneath segment parts) := rfl
      rw [first, induction]
      cases found : value.part? segment with
      | none => simp only [overwrite, found]
      | some inner =>
          simp only [overwrite, found, part_replaced found, replace_replace]
          rfl

theorem get_part (value : Val) (name : String) (rest : Path) :
    value.get? (name :: rest) = (value.part? (.field name)).bind fun inner => inner.get? rest := by
  cases value <;> rfl

theorem set_part (value : Val) (name : String) (rest : Path) (replacement : Val) :
    value.set (name :: rest) replacement =
      match value.part? (.field name) with
      | some part => value.replacePart (.field name) (part.set rest replacement)
      | none => value := by
  cases value with
  | record fields =>
      cases found : lookup fields name with
      | none => simp only [set, part?, found]
      | some part => simp only [set, part?, replacePart, found]
  | _ => rfl

theorem set_overwrite (value : Val) (path : Path) (replacement : Val) :
    value.set path replacement = value.overwrite (path.map Segment.field) replacement := by
  induction path generalizing value with
  | nil => rfl
  | cons name path induction =>
      rw [set_part, List.map_cons, overwrite]
      cases value.part? (.field name) with
      | none => rfl
      | some part => exact congrArg (value.replacePart (.field name)) (induction part)

/-- Overwriting places of what a path leads to is overwriting them in the whole. -/
theorem set_overwritten (value fallback : Val) (path : Path) (parts : List (Trail × Val)) :
    value.set path (((value.get? path).getD fallback).overwriteAll parts) =
      value.overwriteAll ((path.map Segment.field).foldr beneath parts) := by
  induction path generalizing value with
  | nil => rfl
  | cons name path induction =>
      rw [set_part, get_part, List.map_cons, List.foldr_cons, overwrite_all_beneath]
      cases found : value.part? (.field name) with
      | none => rfl
      | some part => exact congrArg (value.replacePart (.field name)) (induction part)

end Val

end Marshal
