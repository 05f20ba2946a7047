import Marshal.Val
import Mathlib.Tactic

/-!
# Reading and replacing along paths

A path that leads somewhere reads what was replaced at it, sees a replacement below it as one
inside of what it reads, and sees none to its side.
-/

namespace Marshal.Val

variable {fields : List (String × Val)} {name wanted : String}

theorem lookup_cons (known : String) (value : Val) (rest : List (String × Val)) (wanted : String) :
    lookup ((known, value) :: rest) wanted =
      if known = wanted then some value else lookup rest wanted := by
  unfold lookup
  rw [List.find?_cons]
  split_ifs with same <;> simp [same]

theorem lookup_update_own {old : Val} (present : lookup fields name = some old) (value : Val) :
    lookup (update fields name value) name = some value := by
  induction fields with
  | nil => simp [lookup] at present
  | cons field rest induction =>
      obtain ⟨known, other⟩ := field
      rw [lookup_cons] at present
      unfold update
      split_ifs at present ⊢ with same
      · rw [lookup_cons, if_pos same]
      · rw [lookup_cons, if_neg same]
        exact induction present

theorem lookup_update_other (different : name ≠ wanted) (value : Val) :
    lookup (update fields name value) wanted = lookup fields wanted := by
  induction fields with
  | nil => rfl
  | cons field rest induction =>
      obtain ⟨known, other⟩ := field
      unfold update
      split_ifs with same
      · rw [lookup_cons, lookup_cons, if_neg (same ▸ different), if_neg (same ▸ different)]
      · rw [lookup_cons, lookup_cons, induction]

theorem names_update (fields : List (String × Val)) (name : String) (value : Val) :
    (update fields name value).map Prod.fst = fields.map Prod.fst := by
  induction fields with
  | nil => rfl
  | cons field rest induction =>
      obtain ⟨known, other⟩ := field
      unfold update
      split_ifs <;> simp [induction]

theorem update_update (fields : List (String × Val)) (name : String) (first second : Val) :
    update (update fields name first) name second = update fields name second := by
  induction fields with
  | nil => rfl
  | cons field rest induction =>
      obtain ⟨known, other⟩ := field
      by_cases same : known = name <;> simp [update, same, induction]

theorem update_own {old : Val} (present : lookup fields name = some old) :
    update fields name old = fields := by
  induction fields with
  | nil => rfl
  | cons field rest induction =>
      obtain ⟨known, other⟩ := field
      rw [lookup_cons] at present
      unfold update
      split_ifs at present ⊢ with same
      · cases present
        rfl
      · rw [induction present]

theorem get_cons {value inner : Val} {name : String} {rest : Path} :
    value.get? (name :: rest) = some inner ↔
      ∃ fields middle, value = .record fields ∧ lookup fields name = some middle ∧
        middle.get? rest = some inner := by
  cases value <;> simp [get?, Option.bind_eq_some_iff]

theorem get_append (value : Val) (path rest : Path) :
    value.get? (path ++ rest) = (value.get? path).bind fun inner => inner.get? rest := by
  induction path generalizing value with
  | nil => simp [get?]
  | cons name path induction =>
      cases value with
      | record fields =>
          cases found : lookup fields name with
          | none => simp [get?, found]
          | some middle => simp [get?, found, induction]
      | _ => rfl

/-- Two paths, neither of which leads through the end of the other. -/
def Apart (left right : Path) : Prop := ¬ left <+: right ∧ ¬ right <+: left

theorem Apart.cons {name : String} {left right : Path} (apart : Apart (name :: left) (name :: right)) :
    Apart left right := by
  simpa [Apart, List.cons_prefix_cons] using apart

theorem apart_or_nested (left right : Path) :
    Apart left right ∨ (∃ rest, right = left ++ rest) ∨ ∃ rest, left = right ++ rest := by
  by_cases inside : left <+: right
  · exact .inr (.inl (inside.imp fun _ same => same.symm))
  · by_cases around : right <+: left
    · exact .inr (.inr (around.imp fun _ same => same.symm))
    · exact .inl ⟨inside, around⟩

theorem get_set_apart {left right : Path} (apart : Apart left right) (value replacement : Val) :
    (value.set left replacement).get? right = value.get? right := by
  induction left generalizing right value with
  | nil => exact absurd (List.nil_prefix) apart.1
  | cons name left induction =>
      cases right with
      | nil => exact absurd (List.nil_prefix) apart.2
      | cons other right =>
          cases value with
          | record fields =>
              cases found : lookup fields name with
              | none => simp [set, found]
              | some middle =>
                  simp only [set, found, get?]
                  by_cases same : name = other
                  · subst same
                    rw [lookup_update_own found, found]
                    exact induction apart.cons middle
                  · rw [lookup_update_other same]
          | _ => rfl

/-- A replacement below a path is one inside of what the path reads. -/
theorem set_append {value inner : Val} {path : Path} (found : value.get? path = some inner)
    (rest : Path) (replacement : Val) :
    value.set (path ++ rest) replacement = value.set path (inner.set rest replacement) := by
  induction path generalizing value with
  | nil =>
      obtain rfl : value = inner := by simpa [get?] using found
      simp [set]
  | cons name path induction =>
      obtain ⟨fields, middle, rfl, known, further⟩ := get_cons.mp found
      simp only [List.cons_append, set, known, induction further]

theorem get_set_own {value old : Val} {path : Path} (found : value.get? path = some old)
    (replacement : Val) : (value.set path replacement).get? path = some replacement := by
  induction path generalizing value with
  | nil => rfl
  | cons name path induction =>
      obtain ⟨fields, middle, rfl, known, further⟩ := get_cons.mp found
      simp only [set, known, get?, lookup_update_own known, Option.bind_some]
      exact induction further

theorem get_set_above {value inner : Val} {path : Path} (found : value.get? path = some inner)
    (rest : Path) (replacement : Val) :
    (value.set (path ++ rest) replacement).get? path = some (inner.set rest replacement) := by
  rw [set_append found, get_set_own found]

theorem get_set_below {value old : Val} {path : Path} (found : value.get? path = some old)
    (rest : Path) (replacement : Val) :
    (value.set path replacement).get? (path ++ rest) = replacement.get? rest := by
  rw [get_append, get_set_own found]
  rfl

theorem set_set {value old : Val} {path : Path} (found : value.get? path = some old)
    (first second : Val) : (value.set path first).set path second = value.set path second := by
  induction path generalizing value with
  | nil => rfl
  | cons name path induction =>
      obtain ⟨fields, middle, rfl, known, further⟩ := get_cons.mp found
      simp only [set, known, lookup_update_own known, update_update, induction further]

theorem set_own {value old : Val} {path : Path} (found : value.get? path = some old) :
    value.set path old = value := by
  induction path generalizing value with
  | nil =>
      obtain rfl : value = old := by simpa [get?] using found
      rfl
  | cons name path induction =>
      obtain ⟨fields, middle, rfl, known, further⟩ := get_cons.mp found
      simp only [set, known, induction further, update_own known]

theorem depth_positive (value : Val) : 0 < value.depth := by
  cases value <;> simp [depth]

theorem depth_item {items : List Val} {value : Val} (member : value ∈ items) :
    value.depth ≤ depthItems items := by
  induction items with
  | nil => simp at member
  | cons first rest induction =>
      rw [depthItems]
      rcases List.mem_cons.mp member with rfl | member
      · exact Nat.le_max_left _ _
      · exact (induction member).trans (Nat.le_max_right _ _)

theorem depth_entry {entries : List (Val × Val)} {entry : Val × Val} (member : entry ∈ entries) :
    entry.1.depth ≤ depthEntries entries ∧ entry.2.depth ≤ depthEntries entries := by
  induction entries with
  | nil => simp at member
  | cons first rest induction =>
      rw [depthEntries]
      rcases List.mem_cons.mp member with rfl | member
      · omega
      · have := induction member
        omega

theorem depth_lookup {value : Val} (found : lookup fields name = some value) :
    value.depth ≤ depthFields fields := by
  induction fields with
  | nil => simp [lookup] at found
  | cons field rest induction =>
      obtain ⟨known, other⟩ := field
      rw [lookup_cons] at found
      rw [depthFields]
      split_ifs at found with same
      · cases found
        exact Nat.le_max_left _ _
      · exact (induction found).trans (Nat.le_max_right _ _)

theorem depth_get {value inner : Val} {path : Path} (found : value.get? path = some inner) :
    inner.depth + path.length ≤ value.depth := by
  induction path generalizing value with
  | nil =>
      obtain rfl : value = inner := by simpa [get?] using found
      simp
  | cons name path induction =>
      obtain ⟨fields, middle, rfl, known, further⟩ := get_cons.mp found
      have below := depth_lookup known
      have further := induction further
      rw [depth, List.length_cons]
      omega

end Marshal.Val
