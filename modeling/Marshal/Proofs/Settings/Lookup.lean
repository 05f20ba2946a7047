import Marshal.Settings.Registry
import Mathlib.Tactic.SplitIfs

/-!
What looking up finds after the entries and the bindings of a registry have changed. None of it
needs the entries to be in name order: the first entry of a name is the one that counts.
-/

namespace Marshal

namespace Entries

@[simp] theorem get_nil (name : String) : Entries.get? [] name = none := rfl

theorem get_cons (known : String) (entry : Entry) (rest : Entries) (name : String) :
    Entries.get? ((known, entry) :: rest) name =
      if known = name then some entry else rest.get? name := by
  by_cases same : known = name <;> simp [Entries.get?, same]

theorem mem_of_get {entries : Entries} {name : String} {entry : Entry}
    (found : entries.get? name = some entry) : (name, entry) ∈ entries := by
  obtain ⟨⟨known, present⟩, first, rfl⟩ := Option.map_eq_some_iff.mp found
  have same := List.find?_some first
  simp only [decide_eq_true_eq] at same
  exact same ▸ List.mem_of_find?_eq_some first

theorem get_of_mem {entries : Entries} (distinct : entries.names.Nodup) {name : String} {entry : Entry}
    (inside : (name, entry) ∈ entries) : entries.get? name = some entry := by
  induction entries with
  | nil => cases inside
  | cons head rest induction =>
      obtain ⟨known, first⟩ := head
      obtain ⟨fresh, further⟩ := List.nodup_cons.mp distinct
      rw [get_cons]
      rcases List.mem_cons.mp inside with same | inside
      · cases same
        exact if_pos rfl
      · have named : name ∈ Entries.names rest := List.mem_map_of_mem inside
        have different : known ≠ name := fun same => fresh (same ▸ named)
        rw [if_neg different, induction further inside]

theorem get_insert (entries : Entries) (name : String) (entry : Entry) (wanted : String) :
    (entries.insert name entry).get? wanted =
      if name = wanted then some entry else entries.get? wanted := by
  induction entries with
  | nil => simp [Entries.insert, get_cons]
  | cons head rest induction =>
      obtain ⟨known, old⟩ := head
      simp only [Entries.insert]
      by_cases before : name < known
      · rw [if_pos before, get_cons]
      · by_cases same : name = known
        · subst same
          rw [if_neg before, if_pos rfl, get_cons, get_cons]
          split_ifs <;> rfl
        · rw [if_neg before, if_neg same, get_cons, get_cons, induction]
          by_cases found : name = wanted
          · have later : known ≠ wanted := fun first => same (found.trans first.symm)
            simp [found, later]
          · simp [found]

theorem get_erase (entries : Entries) (name wanted : String) :
    (entries.erase name).get? wanted = if name = wanted then none else entries.get? wanted := by
  induction entries with
  | nil => simp [Entries.erase]
  | cons head rest induction =>
      obtain ⟨known, old⟩ := head
      by_cases gone : known = name
      · subst gone
        have dropped : Entries.erase ((known, old) :: rest) known = Entries.erase rest known := by
          simp [Entries.erase]
        rw [dropped, induction, get_cons]
        split_ifs <;> rfl
      · have kept : Entries.erase ((known, old) :: rest) name =
            (known, old) :: Entries.erase rest name := by
          simp [Entries.erase, gone]
        rw [kept, get_cons, get_cons, induction]
        by_cases found : known = wanted
        · have other : name ≠ wanted := fun same => gone (found.trans same.symm)
          simp [found, other]
        · simp [found]

theorem erase_absent (entries : Entries) (name : String) (absent : entries.get? name = none) :
    entries.erase name = entries := by
  apply List.filter_eq_self.mpr
  intro pair member
  have other := List.find?_eq_none.mp (Option.map_eq_none_iff.mp absent) pair member
  simpa using other

/-- Taking out what has just been put under a free name gives the entries back as they were. -/
theorem erase_insert (entries : Entries) (name : String) (entry : Entry)
    (free : entries.get? name = none) : (entries.insert name entry).erase name = entries := by
  induction entries with
  | nil => simp [Entries.insert, Entries.erase]
  | cons head rest induction =>
      obtain ⟨known, old⟩ := head
      have different : known ≠ name := by
        rintro rfl
        simp [get_cons] at free
      have absent : Entries.get? rest name = none := by simpa [get_cons, different] using free
      simp only [Entries.insert]
      split_ifs with before same
      · have dropped : Entries.erase ((name, entry) :: (known, old) :: rest) name =
            Entries.erase ((known, old) :: rest) name := by
          simp [Entries.erase]
        rw [dropped, erase_absent _ _ free]
      · exact absurd same.symm different
      · have kept : Entries.erase ((known, old) :: Entries.insert rest name entry) name =
            (known, old) :: Entries.erase (Entries.insert rest name entry) name := by
          simp [Entries.erase, different]
        rw [kept, induction absent]

end Entries

namespace Settings

variable (settings : Settings) (type wanted : Ty) (name : String) (entry : Entry)

/-- Bindings of other types are found as before when those of one type are taken out. -/
theorem find_other_binding (bindings : List (Ty × String)) (different : type ≠ wanted) :
    (bindings.filter fun binding => binding.1 ≠ type).find? (fun binding => binding.1 = wanted) =
      bindings.find? fun binding => binding.1 = wanted := by
  rw [List.find?_filter]
  congr 1
  funext binding
  by_cases found : binding.1 = wanted
  · simp [found, different.symm]
  · simp [found]

theorem find_own_binding (bindings : List (Ty × String)) :
    (bindings.filter fun binding => binding.1 ≠ type).find? (fun binding => binding.1 = type) =
      none := by
  simp [List.find?_eq_none]

theorem bound_bind :
    (settings.bind type name entry).boundName? wanted =
      if type = wanted then some name else settings.boundName? wanted := by
  simp only [Settings.boundName?, Settings.bind, List.find?_append]
  split_ifs with same
  · subst same
    rw [find_own_binding]
    simp
  · rw [find_other_binding type wanted _ same]
    simp [same]

theorem bound_unbind :
    (settings.unbind type name).boundName? wanted =
      if type = wanted then none else settings.boundName? wanted := by
  simp only [Settings.boundName?, Settings.unbind]
  split_ifs with same
  · subst same
    rw [find_own_binding]
    rfl
  · rw [find_other_binding type wanted _ same]

/-- A setting that is withdrawn leaves nothing behind, if its type and its name were free. -/
theorem unbind_bind (unbound : settings.boundName? type = none)
    (free : settings.entries.get? name = none) :
    (settings.bind type name entry).unbind type name = settings := by
  have bindings : (settings.bindings.filter fun binding => binding.1 ≠ type) =
      settings.bindings := by
    apply List.filter_eq_self.mpr
    intro binding member
    have other := List.find?_eq_none.mp (Option.map_eq_none_iff.mp unbound) binding member
    simpa using other
  simp only [Settings.unbind, Settings.bind, Entries.erase_insert _ _ _ free, List.filter_append,
    bindings]
  simp

end Settings

end Marshal
