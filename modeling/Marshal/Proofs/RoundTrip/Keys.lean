import Marshal.Proofs.RoundTrip.Arrival
import Marshal.Proofs.RoundTrip.Values

/-!
# The keys of a map whose keys are texts

Such a map is written as a struct, which has no place for a key but the name of its value's field.
A value that is left out therefore takes its key with it. Reading finds the keys of all other
entries, and no others.
-/

namespace Marshal

namespace Schema

variable {schema : Schema}

/-- What reading makes of a map that was written: a map with the keys of those entries whose values
are not left out, which are all of its keys exactly if no value is. -/
structure KeepsKeys {State : Type} (valueType : Ty) (entries : List (Val × Val))
    (reading : Reading Val State) : Prop where
  outcome : reading.outcome = .ok ()
  isMap : ∃ results, reading.target = .map results
  keys : reading.target.entries.map Prod.fst =
    (entries.filter fun entry => !valueType.leavesOut entry.2).map Prod.fst
  all : reading.target.entries.map Prod.fst = entries.map Prod.fst ↔
    ∀ entry ∈ entries, valueType.leavesOut entry.2 = false

theorem text_key_naming (keyType : Ty) (texts : keyType.unboxed = .string) :
    schema.keyNaming? keyType = some .verbatim := by
  cases keyType with
  | string => rfl
  | boxed inner => exact text_key_naming inner texts
  | _ => cases texts

theorem filter_keys_eq (entries : List (Val × Val)) (kept : Val × Val → Bool) :
    (entries.filter kept).map Prod.fst = entries.map Prod.fst ↔
      ∀ entry ∈ entries, kept entry = true := by
  constructor
  · intro same
    rw [← List.filter_eq_self]
    apply List.filter_sublist.eq_of_length
    simpa using congrArg List.length same
  · intro all
    rw [List.filter_eq_self.mpr all]

theorem Reread.keeps_keys {type valueType : Ty} {entries results : List (Val × Val)}
    {node? : Option Node} {target : Val}
    (keys : results.map Prod.fst =
      (entries.filter fun entry => !valueType.leavesOut entry.2).map Prod.fst)
    (reread : schema.Reread type node? target (.map results)) {State : Type}
    (place : TreePlace State) {state : State} (shows : place.Shows state node?) :
    KeepsKeys valueType entries (schema.read type target place.inlet state) := by
  obtain ⟨outcome, read, -⟩ := reread schema.readObject (deep_object _) place state shows
  have read : (schema.read type target place.inlet state).target = .map results := read
  have entriesRead : (schema.read type target place.inlet state).target.entries = results := by
    rw [read, Val.entries]
  refine ⟨outcome, ⟨results, read⟩, entriesRead ▸ keys, ?_⟩
  rw [entriesRead, keys, filter_keys_eq]
  simp only [Bool.not_eq_true']

section TextKeys

variable {kind : MapKind} {keyType valueType : Ty} {entries : List (Val × Val)}

/-- Texts stand as field names as they are, so only the values decide what is written. -/
theorem text_map_read_back (sound : schema.Sound) (texts : keyType.unboxed = .string)
    (names : schema.NamesReadBack valueType)
    (typed : schema.HasType (.map kind keyType valueType) (.map entries))
    (writes : schema.Writes (.map kind keyType valueType) (.map entries)) :
    ∃ fields results,
      schema.Written (.map kind keyType valueType) (.map entries) (some (.struct fields)) ∧
        results.map Prod.fst =
          (entries.filter fun entry => !valueType.leavesOut entry.2).map Prod.fst ∧
        ∀ target, schema.Reread (.map kind keyType valueType) (some (.struct fields)) target
          (.map results) := by
  apply named_map_read_back sound typed (text_key_naming keyType texts)
  · intro text name same
    cases same
    rfl
  · exact fun entry _ => ⟨entry.1.asText, rfl⟩
  · cases typed with
    | map _ _ valuesTyped _ =>
        intro entry inside
        exact arrives sound valueType entry.2 (valuesTyped entry inside) names
          (writes_inside sound (.value inside) writes)

/-- A map from texts that has been written as a new field of a struct, or as the next element of an
array, is read from there as a map again. It has lost the keys whose values were left out, and
these alone. -/
theorem written_text_keys_read (sound : schema.Sound) (texts : keyType.unboxed = .string)
    (names : schema.NamesReadBack valueType)
    (typed : schema.HasType (.map kind keyType valueType) (.map entries)) :
    (∀ name fields written, fields.holds name = false →
      schema.writeNamed (.map kind keyType valueType) (.map entries) name fields =
        (.ok (), written) →
      ∀ target, KeepsKeys valueType entries
        (schema.readNamed (.map kind keyType valueType) target name written)) ∧
    ∀ slots written,
      schema.writeNext (.map kind keyType valueType) (.map entries) slots = (.ok (), written) →
      ∀ target, KeepsKeys valueType entries
        (schema.readNext (.map kind keyType valueType) target
          ⟨written.items, slots.items.length⟩) := by
  constructor
  · intro name fields written empty ok target
    obtain ⟨shown, results, always, keys, reread⟩ := text_map_read_back sound texts names typed
      ⟨_, le_rfl, Fields, Fields.place name, fields, congrArg Prod.fst ok⟩
    have left : schema.writeNamed (.map kind keyType valueType) (.map entries) name fields = _ :=
      always _ le_rfl (Fields.place name) fields
    rw [left] at ok
    cases ok
    exact (reread target).keeps_keys keys (Fields.place name) (Fields.shows_leave empty _)
  · intro slots written ok target
    obtain ⟨shown, results, always, keys, reread⟩ := text_map_read_back sound texts names typed
      ⟨_, le_rfl, Slots, Slots.place, slots, congrArg Prod.fst ok⟩
    have left : schema.writeNext (.map kind keyType valueType) (.map entries) slots = _ :=
      always _ le_rfl Slots.place slots
    rw [left] at ok
    cases ok
    exact (reread target).keeps_keys keys Slots.place List.getElem?_concat_length

end TextKeys

end Schema

namespace Route

/-- The platform of each line that calls at a stop, if it is known. -/
def platforms : Ty := .map .ordered .string count

def lines : List (Val × Val) :=
  [(.text "day", .present (.int 4)), (.text "night", .absent)]

theorem lines_written :
    schema.writeNamed platforms (.map lines) "lines" [] =
      (.ok (), [("lines", .struct [("day", .uint 4)])]) := by
  simp only [Schema.writeNamed, Schema.write, platforms, count, lines, Ty.int, Schema.writeAt,
    Schema.keyNaming?, Val.entries, List.map_cons, List.map_nil, Val.content?]
  rfl

theorem lines_typed : schema.HasType platforms (.map lines) := by
  apply Schema.HasType.map
  · simp only [lines, List.forall_mem_cons]
    exact ⟨.string _, .string _, by simp⟩
  · simp [lines, Val.equal]
  · simp only [lines, List.forall_mem_cons]
    exact ⟨.present (.int (by decide)), .absent, by simp⟩
  · simp only [lines, List.pairwise_cons, List.forall_mem_cons]
    exact ⟨⟨by decide +kernel, by simp⟩, by simp, .nil⟩

theorem count_names : schema.NamesReadBack count := by
  intro kind key value naming inside
  rcases count_parts inside with same | same <;> cases same

end Route

/-- The line whose platform is not known is gone after a round trip. -/
theorem Schema.written_text_keys_read_lines :
    Route.schema.Sound ∧ Ty.string.unboxed = .string ∧
      Route.schema.NamesReadBack Route.count ∧
      Route.schema.HasType Route.platforms (.map Route.lines) ∧
        ∃ written, Route.schema.writeNamed Route.platforms (.map Route.lines) "lines" [] =
          (.ok (), written) ∧
          Schema.KeepsKeys Route.count Route.lines
            (Route.schema.readNamed Route.platforms (.map []) "lines" written) := by
  have keyed : Ty.string.unboxed = .string := rfl
  obtain ⟨named, -⟩ :=
    Schema.written_text_keys_read Route.sound keyed Route.count_names Route.lines_typed
  exact ⟨Route.sound, keyed, Route.count_names, Route.lines_typed, _, Route.lines_written,
    named "lines" [] _ rfl Route.lines_written (.map [])⟩

/-- Maps from texts to optionals do not keep all their keys. -/
theorem Schema.text_keys_not_all_kept :
    ¬ ∀ entries written, Route.schema.HasType Route.platforms (.map entries) →
      Route.schema.writeNamed Route.platforms (.map entries) "lines" [] = (.ok (), written) →
      (Route.schema.readNamed Route.platforms (.map []) "lines" written).target.entries.map Prod.fst =
        entries.map Prod.fst := by
  intro kept
  have same := kept Route.lines _ Route.lines_typed Route.lines_written
  have texts := congrArg (List.map Val.asText) same
  revert texts
  decide +kernel

end Marshal
