import Marshal.Proofs.Structure.Indexing
import Marshal.Proofs.Tree.Place
import Marshal.Read.Value

/-!
# Enumerators and their names

A declared table pairs its names with its values, so an enumerator that is written by its name is
read from it again. A value without a name is refused before the sink is touched, and a name without
a value leaves the target as it was.
-/

namespace Marshal

namespace EnumTable

variable {Enumerator : Type} [DecidableEq Enumerator]

/-- That the names and the values of some entries lead to each other, and nothing else leads
anywhere. -/
structure Pairs (table : EnumTable Enumerator) (entries : List (String × Enumerator)) : Prop where
  names : table.names = entries.map Prod.fst
  entry : ∀ entry ∈ entries,
    table.nameOf? entry.2 = some entry.1 ∧ table.valueOf? entry.1 = some entry.2
  value_back : ∀ value ∈ entries.map Prod.snd,
    (table.nameOf? value).bind table.valueOf? = some value
  name_back : ∀ name ∈ table.names, (table.valueOf? name).bind table.nameOf? = some name
  unmapped : ∀ value ∉ entries.map Prod.snd, table.nameOf? value = none
  unknown : ∀ name ∉ table.names, table.valueOf? name = none

/-- What a declaration answers to the entries that it is told of. -/
structure Answers (owner : String) (calls : List (String × Enumerator)) : Prop where
  built : (∃ table, declare owner calls = .ok table) ↔ calls ≠ [] ∧ Distinct calls
  refused : ∀ fault, declare owner calls = .error fault ↔
    (calls = [] ∧ fault = .of (.noEnumerators owner)) ∨
      ∃ before call after, calls = before ++ call :: after ∧ Distinct before ∧
        Offends owner before call fault
  kind : ∀ fault, declare owner calls = .error fault → fault.kind = .declaration
  pairs : ∀ table, declare owner calls = .ok table → table.Pairs calls
  /-- Telling of one entry after the other comes to the same. -/
  stepwise : ((calls.foldl (TableBuilder.value owner) .empty).build owner).map
    (fun built => ⟨built.entries⟩) = declare owner calls
  indexed : ∀ built, (calls.foldl (TableBuilder.value owner) .empty).build owner = .ok built →
    ∀ name, built.valueAt? name = (⟨built.entries⟩ : EnumTable Enumerator).valueOf? name

theorem Distinct.pairs {entries : List (String × Enumerator)} (distinct : Distinct entries) :
    (⟨entries⟩ : EnumTable Enumerator).Pairs entries := by
  have paired : ∀ entry ∈ entries, nameOf? ⟨entries⟩ entry.2 = some entry.1 ∧
      valueOf? ⟨entries⟩ entry.1 = some entry.2 :=
    fun _ inside => ⟨(name_of_iff distinct).mpr inside, (value_of_iff distinct).mpr inside⟩
  refine ⟨rfl, paired, ?_, ?_, fun _ => name_of_none.mpr, fun _ => value_of_none.mpr⟩
  · intro value mapped
    obtain ⟨entry, inside, rfl⟩ := List.mem_map.mp mapped
    obtain ⟨named, valued⟩ := paired entry inside
    rw [named, Option.bind_some, valued]
  · intro name known
    obtain ⟨entry, inside, rfl⟩ := List.mem_map.mp known
    obtain ⟨named, valued⟩ := paired entry inside
    rw [valued, Option.bind_some, named]

theorem declare_answers (owner : String) (calls : List (String × Enumerator)) :
    Answers owner calls where
  built := by simp only [declare_ok_iff, exists_and_left, exists_eq, and_true]
  refused _ := declare_error_iff
  kind fault failed := by
    rcases declare_error_iff.mp failed with ⟨-, rfl⟩ | ⟨before, call, after, -, -, offends⟩
    · rfl
    · exact offends.declaration
  pairs table declared := by
    obtain ⟨-, distinct, rfl⟩ := declare_ok_iff.mp declared
    exact distinct.pairs
  stepwise := (TableBuilder.built_declared owner calls).1
  indexed := (TableBuilder.built_declared owner calls).2

end EnumTable

/-- That a text is found at a place, and what finding it leaves. -/
def Inlet.Spells {State : Type} (inlet : Inlet State) (state : State) (text : String)
    (left : State) : Prop :=
  ∃ source, inlet.value state = (.ok source, left) ∧ source.getOrFault .string = .ok (.text text)

theorem TreePlace.spells {State : Type} (place : TreePlace State) {state : State} {text : String}
    (shows : place.Shows state (some (.text text))) :
    place.inlet.Spells state text (place.next state) :=
  ⟨_, place.value_eq shows, rfl⟩

namespace Schema

variable {schema : Schema} {name : String} {table : EnumTable Int}

/-- How the values of an enumeration are written and read by means of its table. -/
structure Exchanges (schema : Schema) (name : String) (table : EnumTable Int) : Prop where
  /-- Through any sink a value is written as its name, which is the value again to any source. -/
  mapped : ∀ code ∈ table.entries.map Prod.snd, ∃ text ∈ table.names,
    (∀ {Structs Arrays State : Type} (sink : Sink Structs Arrays)
      (outlet : Outlet Structs Arrays State),
      schema.write sink (.enumeration name) (.enumerator code) outlet = outlet.put (.text text)) ∧
    ∀ {State : Type} {inlet : Inlet State} {state left : State}, inlet.Spells state text left →
      ∀ target, schema.read (.enumeration name) target inlet state =
        ⟨.ok (), .enumerator code, left, []⟩
  field : ∀ code ∈ table.entries.map Prod.snd, ∀ place fields, ∃ written,
    schema.writeNamed (.enumeration name) (.enumerator code) place fields = (.ok (), written) ∧
      ∀ target, schema.readNamed (.enumeration name) target place written =
        ⟨.ok (), .enumerator code, written, []⟩
  element : ∀ code ∈ table.entries.map Prod.snd, ∀ slots, ∃ written,
    schema.writeNext (.enumeration name) (.enumerator code) slots = (.ok (), written) ∧
      ∀ target, schema.readNext (.enumeration name) target ⟨written.items, slots.items.length⟩ =
        ⟨.ok (), .enumerator code, ⟨written.items, slots.items.length + 1⟩, []⟩
  unmapped : ∀ code ∉ table.entries.map Prod.snd,
    ∀ {Structs Arrays State : Type} (sink : Sink Structs Arrays)
      (outlet : Outlet Structs Arrays State) (state : State),
      schema.write sink (.enumeration name) (.enumerator code) outlet state =
        (.error (.of (.unmappedEnumerator (schema.enumerationInfo name).label)), state)
  unknown : ∀ text ∉ table.names, ∀ {State : Type} {inlet : Inlet State} {state left : State},
    inlet.Spells state text left →
      ∀ target, schema.read (.enumeration name) target inlet state =
        ⟨.error (.of (.unknownEnumerator text (schema.enumerationInfo name).label)), target, left,
          []⟩

theorem enumerator_written (found : (schema.enumerationInfo name).table = .ok table) (code : Int)
    {Structs Arrays State : Type} (sink : Sink Structs Arrays)
    (outlet : Outlet Structs Arrays State) :
    schema.write sink (.enumeration name) (.enumerator code) outlet =
      match table.nameOf? code with
      | some text => outlet.put (.text text)
      | none => .fail (.of (.unmappedEnumerator (schema.enumerationInfo name).label)) := by
  rw [write, writeAt, Val.asCode, EnumerationInfo.nameOf, found]
  dsimp only
  cases table.nameOf? code <;> rfl

theorem enumerator_read (found : (schema.enumerationInfo name).table = .ok table) {State : Type}
    {inlet : Inlet State} {state left : State} {text : String}
    (spells : inlet.Spells state text left) (target : Val) :
    schema.read (.enumeration name) target inlet state =
      match table.valueOf? text with
      | some code => ⟨.ok (), .enumerator code, left, []⟩
      | none =>
          ⟨.error (.of (.unknownEnumerator text (schema.enumerationInfo name).label)), target, left,
            []⟩ := by
  obtain ⟨source, held, taken⟩ := spells
  rw [read, readAt, readScalar, held]
  dsimp only
  rw [taken]
  dsimp only
  rw [Val.asText, EnumerationInfo.codeOf, found]
  dsimp only
  cases table.valueOf? text <;> rfl

theorem enumerators_exchanged (found : (schema.enumerationInfo name).table = .ok table)
    (pairs : table.Pairs table.entries) : schema.Exchanges name table := by
  have mapped : ∀ code ∈ table.entries.map Prod.snd, ∃ text ∈ table.names,
      (∀ {Structs Arrays State : Type} (sink : Sink Structs Arrays)
        (outlet : Outlet Structs Arrays State),
        schema.write sink (.enumeration name) (.enumerator code) outlet = outlet.put (.text text)) ∧
      ∀ {State : Type} {inlet : Inlet State} {state left : State}, inlet.Spells state text left →
        ∀ target, schema.read (.enumeration name) target inlet state =
          ⟨.ok (), .enumerator code, left, []⟩ := by
    intro code mapped
    obtain ⟨entry, inside, rfl⟩ := List.mem_map.mp mapped
    obtain ⟨named, valued⟩ := pairs.entry entry inside
    refine ⟨entry.1, List.mem_map_of_mem inside, ?_, ?_⟩
    · intro Structs Arrays State sink outlet
      rw [enumerator_written found, named]
    · intro State inlet state left spells target
      rw [enumerator_read found spells, valued]
  refine ⟨mapped, ?_, ?_, ?_, ?_⟩
  · intro code inside place fields
    obtain ⟨text, -, written, read⟩ := mapped code inside
    have shows : (Fields.place place).Shows (fields.put place (.text text)) (some (.text text)) :=
      (Fields.get_put fields place place _).trans (if_pos rfl)
    refine ⟨fields.put place (.text text), ?_, read ((Fields.place place).spells shows)⟩
    rw [writeNamed, written]
    rfl
  · intro code inside slots
    obtain ⟨text, -, written, read⟩ := mapped code inside
    have shows : Slots.place.Shows ⟨slots.items ++ [.text text], slots.items.length⟩
        (some (.text text)) := List.getElem?_concat_length
    refine ⟨slots.push (.text text), ?_, read (Slots.place.spells shows)⟩
    rw [writeNext, written]
    rfl
  · intro code outside Structs Arrays State sink outlet state
    rw [enumerator_written found, pairs.unmapped code outside]
    rfl
  · intro text outside State inlet state left spells target
    rw [enumerator_read found spells, pairs.unknown text outside]

/-- A declaration accepts entries exactly if there are some and none repeats a name or a value, and
then pairs them. So every enumeration that has been declared exchanges its values by their names. -/
theorem enumerators_paired :
    (∀ {Enumerator : Type} [DecidableEq Enumerator] (owner : String)
      (calls : List (String × Enumerator)), EnumTable.Answers owner calls) ∧
    ∀ (schema : Schema) (name owner : String) (calls : List (String × Int)) (table : EnumTable Int),
      (schema.enumerationInfo name).table = EnumTable.declare owner calls →
        EnumTable.declare owner calls = .ok table → schema.Exchanges name table := by
  refine ⟨EnumTable.declare_answers, ?_⟩
  intro schema name owner calls table found declared
  apply enumerators_exchanged (found.trans declared)
  obtain ⟨-, distinct, rfl⟩ := EnumTable.declare_ok_iff.mp declared
  exact distinct.pairs

end Schema

namespace Level

def calls : List (String × Int) := [("low", 0), ("max", 2)]

/-- Three levels, the one in the middle being left without a name. -/
def schema : Schema where
  structures := []
  enumerations :=
    [⟨"Level", "Level", 0, EnumTable.declare "Level" calls, .variants ["Low", "Mid", "Max"]⟩]
  textuals := []

end Level

/-- The greatest level is read after it has been written; the level without a name is refused. -/
theorem Schema.enumerators_paired_level :
    (Level.schema.enumerationInfo "Level").table = EnumTable.declare "Level" Level.calls ∧
      EnumTable.declare "Level" Level.calls = .ok ⟨Level.calls⟩ ∧
      Level.schema.Exchanges "Level" ⟨Level.calls⟩ ∧
      (∃ written, Level.schema.writeNamed (.enumeration "Level") (.enumerator 2) "level" [] =
          (.ok (), written) ∧
        Level.schema.readNamed (.enumeration "Level") (.enumerator 0) "level" written =
          ⟨.ok (), .enumerator 2, written, []⟩) ∧
      Level.schema.writeNamed (.enumeration "Level") (.enumerator 1) "level" [] =
        (.error (.of (.unmappedEnumerator "Level")), []) := by
  have exchanges :=
    enumerators_paired.2 Level.schema "Level" "Level" Level.calls ⟨Level.calls⟩ rfl rfl
  obtain ⟨written, ok, read⟩ := exchanges.field 2 (by decide) "level" []
  exact ⟨rfl, rfl, exchanges, ⟨written, ok, read _⟩,
    exchanges.unmapped 1 (by decide) treeSink (Fields.outlet "level") []⟩

end Marshal
