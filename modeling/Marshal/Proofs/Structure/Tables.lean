import Marshal.EnumTable
import Mathlib.Data.List.Nodup
import Mathlib.Tactic.SplitIfs

/-!
# Tables of enumerators

A table is declared exactly if no name and no value is repeated; otherwise the first entry that
repeats one decides the fault. Names and values of a declared table lead to each other.
-/

namespace Marshal.EnumTable

variable {Enumerator : Type} {owner : String} {entries more : List (String × Enumerator)}
variable {entry : String × Enumerator} {fault : Fault}

/-- That no name and no value is repeated. -/
def Distinct (entries : List (String × Enumerator)) : Prop :=
  (entries.map Prod.fst).Nodup ∧ (entries.map Prod.snd).Nodup

/-- Why an entry cannot follow others. A repeated name counts before a repeated value. -/
inductive Offends (owner : String) (earlier : List (String × Enumerator))
    (entry : String × Enumerator) : Fault → Prop
  | name (known : entry.1 ∈ earlier.map Prod.fst) :
      Offends owner earlier entry (.of (.enumeratorNameRepeated entry.1 owner))
  | value {other : String} (fresh : entry.1 ∉ earlier.map Prod.fst)
      (mapped : (other, entry.2) ∈ earlier) :
      Offends owner earlier entry (.of (.enumeratorValueRepeated other entry.1 owner))

theorem Offends.declaration (offends : Offends owner entries entry fault) :
    fault.kind = .declaration := by
  cases offends <;> rfl

theorem distinct_nil : Distinct ([] : List (String × Enumerator)) := ⟨.nil, .nil⟩

theorem Distinct.before (distinct : Distinct (entries ++ more)) : Distinct entries := by
  rw [Distinct, List.map_append, List.map_append] at distinct
  exact ⟨distinct.1.of_append_left, distinct.2.of_append_left⟩

theorem distinct_snoc : Distinct (entries ++ [entry]) ↔ Distinct entries ∧
    entry.1 ∉ entries.map Prod.fst ∧ entry.2 ∉ entries.map Prod.snd := by
  rw [Distinct, Distinct, List.map_append, List.map_append, List.map_singleton, List.map_singleton,
    List.nodup_append_comm, List.singleton_append, List.nodup_cons, List.nodup_append_comm,
    List.singleton_append, List.nodup_cons]
  tauto

theorem Offends.not_distinct (offends : Offends owner entries entry fault) :
    ¬ Distinct (entries ++ entry :: more) := by
  intro distinct
  rw [← List.singleton_append, ← List.append_assoc] at distinct
  obtain ⟨-, fresh, unmapped⟩ := distinct_snoc.mp distinct.before
  cases offends with
  | name known => exact fresh known
  | value _ mapped => exact unmapped (List.mem_map.mpr ⟨_, mapped, rfl⟩)

/-- An entry is found by a key that no other entry has. -/
theorem find_keyed {Key : Type} [DecidableEq Key] (key : String × Enumerator → Key)
    (distinct : (entries.map key).Nodup) (inside : entry ∈ entries) :
    entries.find? (fun other => key other = key entry) = some entry := by
  induction entries with
  | nil => simp at inside
  | cons first rest induction =>
      rw [List.map_cons, List.nodup_cons] at distinct
      rw [List.find?_cons]
      rcases List.mem_cons.mp inside with rfl | further
      · simp
      · have different : key first ≠ key entry := by
          intro same
          exact distinct.1 (same ▸ List.mem_map_of_mem further)
        simp only [different, decide_false]
        exact induction distinct.2 further

variable [DecidableEq Enumerator]

section Adding

omit [DecidableEq Enumerator] in
theorem any_named : (entries.any fun declared => declared.1 = entry.1) = true ↔
    entry.1 ∈ entries.map Prod.fst := by
  simp only [List.any_eq_true, decide_eq_true_eq, List.mem_map]

theorem add_accepted (fresh : entry.1 ∉ entries.map Prod.fst)
    (unmapped : entry.2 ∉ entries.map Prod.snd) :
    add owner entries entry = .ok (entries ++ [entry]) := by
  have unvalued : entries.find? (fun declared => declared.2 = entry.2) = none := by
    rw [List.find?_eq_none]
    intro declared inside same
    exact unmapped (List.mem_map.mpr ⟨declared, inside, of_decide_eq_true same⟩)
  rw [add, if_neg (mt any_named.mp fresh), unvalued]

theorem add_refused (distinct : Distinct entries) (offends : Offends owner entries entry fault) :
    add owner entries entry = .error fault := by
  rw [add]
  cases offends with
  | name known => rw [if_pos (any_named.mpr known)]
  | value fresh mapped =>
      have found := find_keyed Prod.snd distinct.2 mapped
      rw [if_neg (mt any_named.mp fresh), found]

theorem add_cases (owner : String) (distinct : Distinct entries) (entry : String × Enumerator) :
    (Distinct (entries ++ [entry]) ∧ add owner entries entry = .ok (entries ++ [entry])) ∨
      ∃ fault, Offends owner entries entry fault ∧ add owner entries entry = .error fault := by
  by_cases known : entry.1 ∈ entries.map Prod.fst
  · exact .inr ⟨_, .name known, add_refused distinct (.name known)⟩
  · by_cases mapped : entry.2 ∈ entries.map Prod.snd
    · obtain ⟨⟨other, value⟩, inside, rfl⟩ := List.mem_map.mp mapped
      exact .inr ⟨_, .value known inside, add_refused distinct (.value known inside)⟩
    · exact .inl ⟨distinct_snoc.mpr ⟨distinct, known, mapped⟩, add_accepted known mapped⟩

/-- Entries are added to others, or the first one that repeats a name or a value is refused. -/
theorem add_all_cases (owner : String) (distinct : Distinct entries)
    (more : List (String × Enumerator)) :
    (Distinct (entries ++ more) ∧ addAll owner entries more = .ok (entries ++ more)) ∨
      ∃ before entry after fault, more = before ++ entry :: after ∧ Distinct (entries ++ before) ∧
        Offends owner (entries ++ before) entry fault ∧
        addAll owner entries more = .error fault := by
  induction more generalizing entries with
  | nil =>
      rw [List.append_nil]
      exact .inl ⟨distinct, rfl⟩
  | cons entry rest induction =>
      have split : entries ++ entry :: rest = (entries ++ [entry]) ++ rest := by simp
      rw [addAll, split]
      rcases add_cases owner distinct entry with ⟨further, added⟩ | ⟨fault, offends, refused⟩
      · rw [added]
        rcases induction further with accepted | ⟨before, other, after, fault, rfl, found⟩
        · exact .inl accepted
        · rw [List.append_assoc, List.singleton_append] at found
          exact .inr ⟨entry :: before, other, after, fault, rfl, found⟩
      · rw [refused]
        refine .inr ⟨[], entry, rest, fault, rfl, ?_, ?_, rfl⟩
        · rwa [List.append_nil]
        · rwa [List.append_nil]

theorem add_all_distinct (distinct : Distinct more) : addAll owner [] more = .ok more := by
  rcases add_all_cases owner distinct_nil more with
    ⟨-, added⟩ | ⟨before, entry, after, fault, rfl, -, offends, -⟩
  · exact added
  · exact absurd distinct offends.not_distinct

theorem add_all_append (entries first second : List (String × Enumerator)) :
    addAll owner entries (first ++ second) =
      (addAll owner entries first).bind fun added => addAll owner added second := by
  induction first generalizing entries with
  | nil => rfl
  | cons entry rest induction =>
      rw [List.cons_append, addAll, addAll]
      cases add owner entries entry with
      | error fault => rfl
      | ok extended => exact induction extended

end Adding

section Declaring

theorem declare_ok_iff {table : EnumTable Enumerator} :
    declare owner entries = .ok table ↔ entries ≠ [] ∧ Distinct entries ∧ table = ⟨entries⟩ := by
  rw [declare]
  rcases add_all_cases owner distinct_nil entries with
    ⟨distinct, added⟩ | ⟨before, entry, after, fault, rfl, -, offends, refused⟩
  · rw [List.nil_append] at distinct added
    rw [added]
    cases entries with
    | nil => simp
    | cons entry rest => simp [distinct, eq_comm]
  · rw [List.nil_append] at offends
    rw [refused]
    simp [offends.not_distinct]

/-- What is refused is the first entry that repeats a name or a value, or that there is none. -/
theorem declare_error_iff : declare owner entries = .error fault ↔
    (entries = [] ∧ fault = .of (.noEnumerators owner)) ∨
      ∃ before entry after, entries = before ++ entry :: after ∧ Distinct before ∧
        Offends owner before entry fault := by
  constructor
  · intro failed
    rw [declare] at failed
    rcases add_all_cases owner distinct_nil entries with
      ⟨-, added⟩ | ⟨before, entry, after, fault, rfl, distinct, offends, refused⟩
    · rw [List.nil_append] at added
      rw [added] at failed
      cases entries with
      | nil => exact .inl ⟨rfl, (Except.error.inj failed).symm⟩
      | cons entry rest => cases failed
    · rw [refused] at failed
      cases failed
      exact .inr ⟨before, entry, after, rfl, distinct, offends⟩
  · rintro (⟨rfl, rfl⟩ | ⟨before, entry, after, rfl, distinct, offends⟩)
    · rfl
    · have refused : addAll owner [] (before ++ entry :: after) = .error fault := by
        rw [add_all_append, add_all_distinct distinct, Except.bind, addAll,
          add_refused distinct offends]
      rw [declare, refused]

/-- The table of entries that have distinct values. -/
theorem declare_cases (owner : String) (some : more ≠ []) (values : (more.map Prod.snd).Nodup) :
    ((more.map Prod.fst).Nodup ∧ declare owner more = .ok ⟨more⟩) ∨
    (¬ (more.map Prod.fst).Nodup ∧ ∃ name ∈ more.map Prod.fst,
      declare owner more = .error (.of (.enumeratorNameRepeated name owner))) := by
  by_cases names : (more.map Prod.fst).Nodup
  · exact .inl ⟨names, declare_ok_iff.mpr ⟨some, ⟨names, values⟩, rfl⟩⟩
  · refine .inr ⟨names, ?_⟩
    cases declared : declare owner more with
    | ok table => exact absurd (declare_ok_iff.mp declared).2.1.1 names
    | error fault =>
        rcases declare_error_iff.mp declared with
          ⟨none, -⟩ | ⟨before, entry, after, rfl, -, offends⟩
        · exact absurd none some
        · cases offends with
          | name known => exact ⟨entry.1, by simp, rfl⟩
          | value _ mapped =>
              rw [List.map_append, List.nodup_append] at values
              exact absurd rfl (values.2.2 _ (List.mem_map_of_mem mapped) _ List.mem_cons_self)

end Declaring

section Looking

variable {table : EnumTable Enumerator} {name : String} {value : Enumerator}

theorem name_of_iff (distinct : Distinct table.entries) :
    table.nameOf? value = some name ↔ (name, value) ∈ table.entries := by
  rw [nameOf?, Option.map_eq_some_iff]
  constructor
  · rintro ⟨found, hit, rfl⟩
    have same : found.2 = value := by simpa using List.find?_some hit
    exact same ▸ List.mem_of_find?_eq_some hit
  · exact fun inside => ⟨_, find_keyed Prod.snd distinct.2 inside, rfl⟩

omit [DecidableEq Enumerator] in
theorem value_of_iff (distinct : Distinct table.entries) :
    table.valueOf? name = some value ↔ (name, value) ∈ table.entries := by
  rw [valueOf?, Option.map_eq_some_iff]
  constructor
  · rintro ⟨found, hit, rfl⟩
    have same : found.1 = name := by simpa using List.find?_some hit
    exact same ▸ List.mem_of_find?_eq_some hit
  · exact fun inside => ⟨_, find_keyed Prod.fst distinct.1 inside, rfl⟩

theorem name_of_none : table.nameOf? value = none ↔ value ∉ table.entries.map Prod.snd := by
  simp only [nameOf?, Option.map_eq_none_iff, List.find?_eq_none, decide_eq_true_eq, List.mem_map,
    not_exists, not_and]

omit [DecidableEq Enumerator] in
theorem value_of_none : table.valueOf? name = none ↔ name ∉ table.entries.map Prod.fst := by
  simp only [valueOf?, Option.map_eq_none_iff, List.find?_eq_none, decide_eq_true_eq, List.mem_map,
    not_exists, not_and]

theorem declared_distinct (declared : declare owner entries = .ok table) :
    Distinct table.entries := by
  obtain ⟨-, distinct, rfl⟩ := declare_ok_iff.mp declared
  exact distinct

/-- The name that a declared table gives a value is read as that value. -/
theorem value_of_name (declared : declare owner entries = .ok table)
    (named : table.nameOf? value = some name) : table.valueOf? name = some value :=
  (value_of_iff (declared_distinct declared)).mpr
    ((name_of_iff (declared_distinct declared)).mp named)

end Looking

end Marshal.EnumTable
