import Marshal.Proofs.Structure.Tables

/-!
# Tables with an index

A table can be put together entry by entry beside an index that keeps where each name stands, the
first refusal ending all growth. The index and the entries stay in step over any number of entries,
and what is built, or refused, is what a declaration of all entries at once answers.
-/

namespace Marshal

/-- A table under way: its entries, where the entry of each name stands, and the first refusal. -/
structure TableBuilder (Enumerator : Type) where
  entries : List (String × Enumerator)
  places : List (String × Nat)
  refusal? : Option Fault

namespace TableBuilder

variable {Enumerator : Type}

def empty : TableBuilder Enumerator := ⟨[], [], none⟩

def place? (builder : TableBuilder Enumerator) (name : String) : Option Nat :=
  (builder.places.find? fun place => place.1 = name).map Prod.snd

/-- The value at the place that the index gives for a name. -/
def valueAt? (builder : TableBuilder Enumerator) (name : String) : Option Enumerator :=
  (builder.place? name).bind fun place => builder.entries[place]?.map Prod.snd

def refuse (builder : TableBuilder Enumerator) (cause : Cause) : TableBuilder Enumerator :=
  { builder with refusal? := some (.of cause) }

/-- Adds an entry, unless it or an earlier one is refused. -/
def value [DecidableEq Enumerator] (owner : String) (builder : TableBuilder Enumerator)
    (entry : String × Enumerator) : TableBuilder Enumerator :=
  match builder.refusal?, builder.place? entry.1 with
  | some _, _ => builder
  | none, some _ => builder.refuse (.enumeratorNameRepeated entry.1 owner)
  | none, none =>
      match builder.entries.find? fun declared => declared.2 = entry.2 with
      | some other => builder.refuse (.enumeratorValueRepeated other.1 entry.1 owner)
      | none =>
          ⟨builder.entries ++ [entry], (entry.1, builder.entries.length) :: builder.places, none⟩

def build (owner : String) (builder : TableBuilder Enumerator) :
    Except Fault (TableBuilder Enumerator) :=
  match builder.refusal? with
  | some fault => .error fault
  | none => if builder.entries = [] then .error (.of (.noEnumerators owner)) else .ok builder

/-- The entries so far, or why there are none. -/
def outcome (builder : TableBuilder Enumerator) : Except Fault (List (String × Enumerator)) :=
  match builder.refusal? with
  | some fault => .error fault
  | none => .ok builder.entries

/-- That the index gives for every name where its entry stands. -/
def InStep (builder : TableBuilder Enumerator) : Prop :=
  ∀ name, builder.place? name = builder.entries.findIdx? fun entry => entry.1 = name

variable {builder : TableBuilder Enumerator}

theorem InStep.value_at (inStep : builder.InStep) (name : String) :
    builder.valueAt? name = (⟨builder.entries⟩ : EnumTable Enumerator).valueOf? name := by
  rw [valueAt?, inStep, EnumTable.valueOf?]
  generalize builder.entries = entries
  induction entries with
  | nil => rfl
  | cons entry rest induction =>
      rw [List.findIdx?_cons, List.find?_cons]
      cases decide (entry.1 = name) with
      | true => rfl
      | false => simpa [Option.bind_map, Function.comp_def] using induction

variable [DecidableEq Enumerator]

theorem value_in_step (owner : String) (inStep : builder.InStep) (entry : String × Enumerator) :
    (builder.value owner entry).InStep := by
  rw [value]
  split
  · exact inStep
  · exact inStep
  · rename_i unplaced
    split
    · exact inStep
    · intro name
      rw [inStep] at unplaced
      rw [place?, List.find?_cons, List.findIdx?_append, ← inStep, List.findIdx?_singleton]
      by_cases same : entry.1 = name
      · subst same
        simp [inStep entry.1, unplaced]
      · simp [same, place?]

theorem value_outcome (owner : String) (inStep : builder.InStep) (entry : String × Enumerator) :
    (builder.value owner entry).outcome =
      builder.outcome.bind fun entries => EnumTable.add owner entries entry := by
  have known : (builder.entries.any fun declared => declared.1 = entry.1) =
      (builder.place? entry.1).isSome := by
    rw [inStep, List.findIdx?_isSome]
  rw [value, outcome.eq_def builder]
  split
  · rename_i refused
    rw [refused, outcome, refused]
    rfl
  · rename_i accepted placed
    rw [accepted, Except.bind, EnumTable.add, if_pos (by rw [known, placed]; rfl)]
    rfl
  · rename_i accepted unplaced
    rw [accepted, Except.bind, EnumTable.add, if_neg (by rw [known, unplaced]; simp)]
    cases builder.entries.find? fun declared => declared.2 = entry.2 <;> rfl

/-- However many entries have been told of, the index is in step and the first refusal stands. -/
theorem values_follow (owner : String) (inStep : builder.InStep)
    (calls : List (String × Enumerator)) :
    (calls.foldl (value owner) builder).InStep ∧
      (calls.foldl (value owner) builder).outcome =
        builder.outcome.bind fun entries => EnumTable.addAll owner entries calls := by
  induction calls generalizing builder with
  | nil =>
      refine ⟨inStep, ?_⟩
      rw [List.foldl_nil]
      cases builder.outcome <;> rfl
  | cons entry rest induction =>
      obtain ⟨kept, outcomes⟩ := induction (value_in_step owner inStep entry)
      refine ⟨kept, ?_⟩
      rw [List.foldl_cons, outcomes, value_outcome owner inStep]
      cases builder.outcome with
      | error fault => rfl
      | ok entries =>
          rw [Except.bind, Except.bind, EnumTable.addAll]
          cases EnumTable.add owner entries entry <;> rfl

/-- What is built entry by entry is the table that is declared, and the index finds its values. -/
theorem built_declared (owner : String) (calls : List (String × Enumerator)) :
    ((calls.foldl (value owner) empty).build owner).map (fun built => ⟨built.entries⟩) =
      EnumTable.declare owner calls ∧
    ∀ built, (calls.foldl (value owner) empty).build owner = .ok built → ∀ name,
      built.valueAt? name = (⟨built.entries⟩ : EnumTable Enumerator).valueOf? name := by
  have start : (empty : TableBuilder Enumerator).InStep := fun _ => rfl
  obtain ⟨inStep, outcomes⟩ := values_follow owner start calls
  generalize calls.foldl (value owner) empty = builder at inStep outcomes
  constructor
  · have added : builder.outcome = EnumTable.addAll owner [] calls := outcomes
    rw [EnumTable.declare, ← added, build, outcome]
    cases builder.refusal? with
    | some fault => rfl
    | none =>
        obtain ⟨entries, places, refusal⟩ := builder
        cases entries <;> rfl
  · intro built done
    rw [build] at done
    split at done
    · cases done
    · split_ifs at done
      cases done
      exact inStep.value_at

end TableBuilder

end Marshal
