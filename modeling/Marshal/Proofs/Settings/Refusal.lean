import Marshal.Proofs.Settings.Consistency

/-!
# What a registry can be asked for, and what it refuses

As the two sides of a registry agree, a declared type is always found with a value of its own, a
type that is not declared is refused as just that, and a name is refused as taken only where
another type stands under it.
-/

namespace Marshal

namespace Settings

section Lookups

variable {settings : Settings} (type : Ty)

theorem Consistent.get_of_bound (consistent : Consistent settings) {name : String}
    (bound : settings.boundName? type = some name) :
    ∃ entry value, settings.entries.get? name = some entry ∧ entry.value.get type = .ok value := by
  obtain ⟨entry, found, ofType⟩ := (consistent.bound_iff type name).mp bound
  have held := consistent.stored name entry found
  rw [ofType] at held
  unfold AnyValue.type? at held
  cases content : entry.value.held? with
  | none => simp [content] at held
  | some inner =>
      have same : inner.type = type := by simpa [content] using held
      exact ⟨entry, inner.value, found, by simp [AnyValue.get, content, same]⟩

theorem Consistent.bound_iff_declared (consistent : Consistent settings) :
    (∃ name, settings.boundName? type = some name) ↔
      ∃ name entry, settings.entries.get? name = some entry ∧ entry.type = type :=
  exists_congr fun name => consistent.bound_iff type name

/-- Getting fails in one way only: the type is bound to no name. -/
theorem Consistent.get_eq (consistent : Consistent settings) :
    (∃ name value, settings.boundName? type = some name ∧ settings.get type = .ok value) ∨
      settings.boundName? type = none ∧
        settings.get type = .error (.typeNotDeclared type.name) := by
  cases bound : settings.boundName? type with
  | none => exact .inr ⟨rfl, by simp [Settings.get, nameFor, bound]⟩
  | some name =>
      obtain ⟨entry, value, found, held⟩ := consistent.get_of_bound type bound
      refine .inl ⟨name, value, rfl, ?_⟩
      simp [Settings.get, nameFor, bound, found, held, Except.mapError]

theorem Consistent.modify_eq (consistent : Consistent settings) (change : Val → Val) :
    (∃ name, settings.boundName? type = some name ∧
        (modify settings type change).outcome = .ok ()) ∨
      settings.boundName? type = none ∧
        (modify settings type change).outcome = .error (.typeNotDeclared type.name) := by
  cases bound : settings.boundName? type with
  | none => exact .inr ⟨rfl, by simp [modify, nameFor, bound, refuse]⟩
  | some name =>
      obtain ⟨entry, value, found, held⟩ := consistent.get_of_bound type bound
      refine .inl ⟨name, rfl, ?_⟩
      simp [modify, nameFor, bound, found, held, accept]

end Lookups

end Settings

/-- The type and the name that a call declares. -/
def RegistryCall.declared? : RegistryCall → Option (Ty × String)
  | .declare type name _ => some (type, name)
  | .declareValue type name _ _ _ => some (type, name)
  | _ => none

namespace Settings

/-- Whether a fault is the one that reports a name in use. -/
def NotTaken (outcome : Except SettingsFault Unit) : Prop :=
  ∀ name existing, outcome ≠ .error (.nameTaken name existing)

theorem read_from_not_taken (schema : Schema) (settings : Settings) (fields : Fields) :
    NotTaken (readFrom schema settings fields).result.outcome := by
  intro taken existing
  unfold readFrom
  dsimp only
  split <;> simp [refuse, accept]

theorem save_not_taken (schema : Schema) (settings : Settings) (file : FileState) :
    NotTaken (save schema settings file).outcome := by
  unfold save
  split
  · simp [NotTaken]
  · unfold saveTo
    split
    · rename_i fault written writing
      unfold writeInto at writing
      split at writing <;> cases writing
      simp [NotTaken]
    · split
      · simp [NotTaken]
      · split <;> simp [NotTaken]

variable [Json.NumberReader]

theorem load_entry_not_taken (schema : Schema) (file : FileState) (settings : Settings)
    (name : String) : NotTaken (loadEntry schema file settings name).outcome := by
  intro taken existing
  unfold loadEntry
  split
  · rename_i fault log backing
    unfold backingText at backing
    split at backing
    · cases backing
    · split at backing <;> cases backing
      simp [refuse]
  · simp [accept]
  · split
    · simp [refuse]
    · split <;> simp [refuse, accept]

theorem insert_and_load_not_taken (schema : Schema) (file : FileState) (settings : Settings)
    (type : Ty) (name : String) (value : Val) :
    NotTaken (insertAndLoad schema file settings type name value).outcome := by
  have loading := load_entry_not_taken schema file
    (settings.bind type name (.of type value)) name
  unfold insertAndLoad
  dsimp only
  split
  · rename_i fault failed
    rwa [failed] at loading
  · intro taken existing
    simp [accept]

/-- A name is refused only where another type stands under it. -/
theorem declare_value_taken (schema : Schema) (file : FileState) (settings : Settings)
    (type : Ty) (name : String) (value : Val) (replace : Bool)
    (consistent : Consistent settings) (taken existing : String)
    (refused : (declareValue schema file settings type name value replace).outcome =
      .error (.nameTaken taken existing)) :
    taken = name ∧ ∃ entry, settings.entries.get? name = some entry ∧ entry.type ≠ type ∧
      entry.type.name = existing := by
  have other : ∀ entry, settings.entries.get? name = some entry →
      settings.boundName? type ≠ some name → entry.type ≠ type := by
    intro entry found elsewhere ofType
    exact elsewhere ((consistent.bound_iff type name).mpr ⟨entry, found, ofType⟩)
  unfold declareValue at refused
  cases bound : settings.boundName? type with
  | none =>
      cases found : settings.entries.get? name with
      | none =>
          simp only [bound, found] at refused
          exact absurd refused
            (insert_and_load_not_taken schema file settings type name value taken existing)
      | some entry =>
          simp only [bound, found, refuse, Except.error.injEq, SettingsFault.nameTaken.injEq]
            at refused
          exact ⟨refused.1.symm, entry, rfl, other entry found (by simp [bound]), refused.2⟩
  | some current =>
      simp only [bound] at refused
      split_ifs at refused with same replacing replacing
      · split at refused <;> simp [refuse, accept] at refused
      · simp [accept] at refused
      · cases found : settings.entries.get? name with
        | none => simp [found, accept] at refused
        | some entry =>
            simp only [found, refuse, Except.error.injEq, SettingsFault.nameTaken.injEq]
              at refused
            exact ⟨refused.1.symm, entry, rfl, other entry found (by simpa [bound] using same),
              refused.2⟩
      · simp [refuse] at refused

theorem load_from_not_taken (schema : Schema) (settings : Settings) (path : String)
    (file : FileState) (source : Fields) :
    NotTaken (loadFrom schema settings path file source).result.outcome := by
  unfold loadFrom
  split
  · simp [NotTaken, refuse]
  · split
    · simp [NotTaken, refuse]
    · rename_i document _
      have reading := read_from_not_taken schema settings document
      dsimp only
      split
      · exact reading
      · simp [NotTaken, accept]

/-- Only a declaration reports a taken name, and only where another type stands under it. -/
theorem perform_taken (schema : Schema) (settings : Settings) (call : RegistryCall)
    (consistent : Consistent settings) (taken existing : String)
    (refused : (perform schema settings call).outcome = .error (.nameTaken taken existing)) :
    ∃ type entry, call.declared? = some (type, taken) ∧
      settings.entries.get? taken = some entry ∧ entry.type ≠ type ∧
        entry.type.name = existing := by
  cases call with
  | declare type name file =>
      obtain ⟨rfl, entry, found⟩ := declare_value_taken schema file settings type name _ false
        consistent taken existing refused
      exact ⟨type, entry, rfl, found⟩
  | declareValue type name value replace file =>
      obtain ⟨rfl, entry, found⟩ := declare_value_taken schema file settings type name value
        replace consistent taken existing refused
      exact ⟨type, entry, rfl, found⟩
  | undeclare name =>
      simp only [perform, undeclare] at refused
      split at refused <;> simp [refuse, accept] at refused
  | access type change =>
      rcases consistent.modify_eq type change with ⟨_, _, changed⟩ | ⟨_, unknown⟩
      · simp [perform, changed] at refused
      · simp [perform, unknown] at refused
  | readFrom document => exact absurd refused (read_from_not_taken schema settings document _ _)
  | loadFrom path file source =>
      exact absurd refused (load_from_not_taken schema settings path file source _ _)
  | load file =>
      simp only [perform, load] at refused
      split at refused
      · simp [refuse] at refused
      · split at refused
        · exact absurd refused (load_from_not_taken schema settings _ file _ _ _)
        · simp [accept] at refused
  | save file => exact absurd refused (save_not_taken schema settings file _ _)

/-- After any calls on an empty registry, whatever the backing file held at each of them and
whichever of them failed, names and types are inverse to each other: a type is bound to a name
exactly when the entry of that name is one of the type with a value of the type, so no type has
two names. A type can be had and changed exactly when it has an entry, and is otherwise refused
as not declared; a name is refused only for an entry of another type. -/
theorem run_sides_agree (schema : Schema) (config : SettingsConfig) (calls : List RegistryCall) :
    let settings := run schema (withConfig config) calls
    (∀ type name, settings.boundName? type = some name ↔
      ∃ entry, settings.entries.get? name = some entry ∧ entry.type = type ∧
        entry.value.type? = some type) ∧
    (∀ name entry, settings.entries.get? name = some entry →
      settings.boundName? entry.type = some name ∧ entry.value.type? = some entry.type) ∧
    (∀ first second left right, settings.entries.get? first = some left →
      settings.entries.get? second = some right → left.type = right.type → first = second) ∧
    (∀ type, ((∃ value, settings.get type = .ok value) ↔
        ∃ name entry, settings.entries.get? name = some entry ∧ entry.type = type) ∧
      ∀ fault, settings.get type = .error fault → fault = .typeNotDeclared type.name) ∧
    (∀ type change, ((modify settings type change).outcome = .ok () ↔
        ∃ name entry, settings.entries.get? name = some entry ∧ entry.type = type) ∧
      ∀ fault, (modify settings type change).outcome = .error fault →
        fault = .typeNotDeclared type.name) ∧
    ∀ call taken existing,
      (perform schema settings call).outcome = .error (.nameTaken taken existing) →
      ∃ type entry, call.declared? = some (type, taken) ∧
        settings.entries.get? taken = some entry ∧ entry.type ≠ type ∧
          entry.type.name = existing := by
  intro settings
  have consistent : Consistent settings :=
    run_consistent schema _ calls (consistent_empty config)
  have bound_of_found : ∀ name entry, settings.entries.get? name = some entry →
      settings.boundName? entry.type = some name := fun name entry found =>
    (consistent.bound_iff entry.type name).mpr ⟨entry, found, rfl⟩
  refine ⟨?_, ?_, ?_, ?_, ?_, fun call => perform_taken schema settings call consistent⟩
  · intro type name
    rw [consistent.bound_iff]
    apply exists_congr
    intro entry
    apply and_congr_right
    intro found
    refine ⟨fun ofType => ⟨ofType, ?_⟩, And.left⟩
    rw [← ofType]
    exact consistent.stored name entry found
  · exact fun name entry found =>
      ⟨bound_of_found name entry found, consistent.stored name entry found⟩
  · intro first second left right foundLeft foundRight same
    have bound := bound_of_found first left foundLeft
    rw [same, bound_of_found second right foundRight] at bound
    exact (Option.some.inj bound).symm
  · intro type
    rw [← consistent.bound_iff_declared]
    rcases consistent.get_eq type with ⟨name, value, bound, got⟩ | ⟨unbound, refused⟩
    · simp [bound, got]
    · simp [unbound, refused]
  · intro type change
    rw [← consistent.bound_iff_declared]
    rcases consistent.modify_eq type change with ⟨name, bound, done⟩ | ⟨unbound, refused⟩
    · simp [bound, done]
    · simp [unbound, refused]

end Settings

end Marshal
