import Marshal.Proofs.Json.Nesting
import Marshal.Proofs.Reading.Families
import Marshal.Proofs.Settings.Transfer
import Marshal.Proofs.Writing.Names

/-!
# What a registry saves it can load, unless a text cannot nest it

Saving asks only whether the values can be written and their doubles printed. Loading reads the text
of the document, which is refused if it nests too many containers, and every entry from it, which
succeeds whatever the values are if the printed doubles are read as what they are. Reading numbers
exactly does so. A reader that is off by a rounding can give a double that is beyond a 32-bit float
where the greatest one had been saved, which its entry then refuses.
-/

namespace Marshal

namespace Entries

variable {schema : Schema}

/-- An entry is decoded from what a text tells of a document as from the document. -/
theorem readable_told {fields other : Fields} (told : Likeness.told.fields fields other)
    (name : String) {entry : Entry} (readable : Readable schema fields name entry) :
    Readable schema other name entry := by
  unfold Readable decodeEntry at readable ⊢
  rw [← Likeness.holds_alike told name]
  split_ifs at readable ⊢
  · unfold Schema.readAny at readable ⊢
    cases held : entry.value.getOrFault entry.type with
    | error fault =>
        rw [held] at readable
        cases readable
    | ok value =>
        rw [held] at readable
        have alike := schema.read_alike entry.type value (Likeness.told.respects_field name) told
        have named := alike.outcome.map_error fun akin => Likeness.told.in_field akin name
        exact named.ok_iff.mp readable
  · rfl

/-- An entry is decoded from what its own value has left. -/
theorem arrived_readable {name : String} {type : Ty} {value : Val}
    (typed : schema.HasType type value) {document : Fields}
    (arrives : schema.Arrives type value (document.get? name)) :
    Readable schema document name (.of type value) := by
  cases holds : document.holds name with
  | false => rw [Readable, decode_missing schema holds]
  | true =>
      obtain ⟨result, -, reread⟩ := arrives.read value (Schema.has_type_shaped typed)
      have yields := reread schema.readObject (Schema.deep_object _) (Fields.place name) document
        (Fields.shows_of_get rfl)
      have outcome : (schema.readNamed type value name document).outcome = .ok () := yields.outcome
      rw [Readable, decode_present schema holds, outcome]
      rfl

end Entries

namespace Settings

variable {schema : Schema} {settings : Settings} {document : Fields}

/-- What has been written of a registry can be read into it, from the document and from what a text
tells of it. -/
theorem written_readable [Json.NumberReader] (sound : schema.Sound) (reached : Reached schema settings)
    (typed : Typed schema settings)
    (names : ∀ name entry, settings.entries.get? name = some entry →
      schema.NamesReadBack entry.type)
    (written : writeInto schema settings [] = (.ok (), document)) :
    (readFrom schema settings (Node.asReadFields document)).result.outcome = .ok () := by
  have distinct := reached.ordered.distinct
  have held : ∀ entry ∈ settings.entries, ∃ type value, entry.2 = .of type value ∧
      schema.HasType type value ∧ schema.NamesReadBack type := by
    intro ⟨name, entry⟩ inside
    have found := Entries.get_of_mem distinct inside
    obtain ⟨value, held⟩ := reached.stored found
    have back := names name entry found
    rw [held] at found
    exact ⟨entry.type, value, held, typed _ _ _ found, back⟩
  obtain ⟨-, arrived⟩ := Entries.write_leaves schema.Arrives
    (fun arrives => arrives.written) distinct
    (fun entry inside => by
      obtain ⟨type, value, same, typed, back⟩ := held entry inside
      exact ⟨type, value, same, Schema.arrives sound type value typed back⟩)
    (fun _ _ => rfl) (entries_written written)
  have told : Likeness.told.fields document (Node.asReadFields document) :=
    Node.as_read_fields_eq.mp (Node.as_read_fields_again document).symm
  refine (read_from_ok ((Entries.read_iff schema reached.ordered _).1.mpr ?_)).1
  intro ⟨name, entry⟩ inside
  obtain ⟨type, value, same, typed, -⟩ := held _ inside
  obtain rfl : entry = .of type value := same
  exact Entries.readable_told told name
    (Entries.arrived_readable typed (arrived _ inside type value rfl))

theorem written_distinct (written : writeInto schema settings [] = (.ok (), document)) :
    (Node.struct document).namesDistinct = true := by
  have maintained := Entries.write_distinct schema settings.entries [] rfl
  rwa [entries_written written] at maintained

section Files

variable {path : String} {file : FileState}

/-- Saving leaves the text of the document that the registry has been written into. -/
theorem save_ok (backed : settings.config.path = some path)
    (tree : settings.config.format = .tree) (saved : (save schema settings file).outcome = .ok ()) :
    let saving := save schema settings file
    writeInto schema settings [] = (.ok (), saving.sink) ∧
      ∃ text, saving.sink.dump = .ok text ∧ saving.file = .text text := by
  intro saving
  have step : saving = saveTo schema settings path file [] := by
    simp only [saving, save, backed, tree, SettingsFormat.tree]
  have saved : saving.outcome = .ok () := saved
  rw [step] at saved ⊢
  unfold saveTo at saved ⊢
  rcases written : writeInto schema settings [] with ⟨_ | _, sink⟩
  · rw [written] at saved
    cases saved
  · rw [written] at saved
    dsimp only at saved ⊢
    cases dumped : sink.dump with
    | error fault =>
        rw [dumped] at saved
        cases saved
    | ok text =>
        rw [dumped] at saved
        dsimp only at saved ⊢
        cases stored : file.write text with
        | error problem =>
            rw [stored] at saved
            cases saved
        | ok changed => exact ⟨rfl, text, dumped, FileState.write_ok stored⟩

theorem load_text [Json.NumberReader] (backed : settings.config.path = some path)
    (tree : settings.config.format = .tree) (text : String) :
    load schema settings (.text text) = (loadFrom schema settings path (.text text) []).result := by
  simp only [load, backed, tree, SettingsFormat.tree, FileState.exists?, if_true]

theorem load_readable [Json.NumberReader] (backed : settings.config.path = some path)
    (tree : settings.config.format = .tree) {text : String}
    (read : Fields.setText [] text = (.ok (), document))
    (readable : (readFrom schema settings document).result.outcome = .ok ()) :
    (load schema settings (.text text)).outcome = .ok () := by
  rw [load_text backed tree, loadFrom, FileState.read]
  dsimp only
  rw [read]
  dsimp only
  rw [readable]
  rfl

theorem load_unreadable [Json.NumberReader] (backed : settings.config.path = some path)
    (tree : settings.config.format = .tree) {text : String} {fault : Fault}
    (refused : Fields.setText [] text = (.error fault, document)) :
    load schema settings (.text text) = ⟨.error (.marshal fault), settings, []⟩ := by
  rw [load_text backed tree, loadFrom, FileState.read]
  dsimp only
  rw [refused]
  rfl

/-- A registry that has saved itself loads the file again exactly if its document nests no more
containers than a text may; else the text is refused and the registry is left as it is. This is so
whichever way numbers are read, if that way reads the doubles of the document back. -/
theorem saved_loaded_unless_too_deep [Json.NumberReader] (sound : schema.Sound)
    (reached : Reached schema settings) (typed : Typed schema settings)
    (names : ∀ name entry, settings.entries.get? name = some entry →
      schema.NamesReadBack entry.type)
    (backed : settings.config.path = some path) (tree : settings.config.format = .tree)
    (saved : (save schema settings file).outcome = .ok ())
    (back : (Node.struct (save schema settings file).sink).DoublesReadBack) :
    let saving := save schema settings file
    let loading := load schema settings saving.file
    ((Node.struct saving.sink).depth ≤ Json.nestingLimit → loading.outcome = .ok ()) ∧
      (Json.nestingLimit < (Node.struct saving.sink).depth → ∃ place, loading =
        ⟨.error (.marshal (.of (.unreadableText (.malformed .tooDeep place)))), settings, []⟩) := by
  intro saving loading
  obtain ⟨written, text, dumped, file⟩ := save_ok backed tree saved
  obtain ⟨shallow, deep⟩ := Fields.dumped_text_read (written_distinct written) dumped back []
  constructor
  · intro within
    have outcome := load_readable backed tree (shallow within)
      (written_readable sound reached typed names written)
    rwa [← file] at outcome
  · intro beyond
    obtain ⟨place, refused⟩ := deep beyond
    have refusal : load schema settings (.text text) = _ := load_unreadable backed tree refused
    rw [← file] at refusal
    exact ⟨place, refusal⟩

end Files

end Settings

namespace Route

open Settings

/-- A registry of a stop to start from that is kept in a file. -/
def kept (home : Val) : Settings :=
  run schema (withConfig ⟨some "stops.json", .tree⟩)
    [.declareValue (.record "Stop") "home" home false .absent]

theorem kept_entries (home : Val) : (kept home).entries = [("home", .of (.record "Stop") home)] := by
  rfl

theorem kept_reached (home : Val) : Reached schema (kept home) := ⟨_, _, rfl⟩

theorem kept_typed {home : Val} (typed : schema.HasType (.record "Stop") home) :
    Typed schema (kept home) := by
  apply typed_of_mem
  rw [kept_entries]
  simp only [List.forall_mem_cons]
  exact ⟨⟨_, home, rfl, typed⟩, nofun⟩

theorem kept_names (home : Val) (name : String) (entry : Entry)
    (found : (kept home).entries.get? name = some entry) : schema.NamesReadBack entry.type := by
  have inside := Entries.mem_of_get found
  rw [kept_entries] at inside
  cases List.mem_singleton.mp inside
  exact restorable.names_read_back

/-- A route of stops, the first of which has that many others after it. -/
def line : Nat → Val
  | 0 => stop "" [] .absent 0
  | others + 1 => stop "" [] (.present (line others)) 0

theorem line_typed (others : Nat) : schema.HasType (.record "Stop") (line others) := by
  induction others with
  | zero => exact stop_typed no_fares .absent (by decide)
  | succ others induction => exact stop_typed no_fares (.present (.boxed induction)) (by decide)

/-- Reads numbers exactly but for the greatest 32-bit float, which it takes for the double after it. -/
@[reducible]
def roundedUp : Json.NumberReader where
  read negative whole places exponent :=
    let exact := Json.NumberReader.exact.read negative whole places exponent
    if exact = ⟨0x47efffffe0000000⟩ then ⟨0x47efffffe0000001⟩ else exact

/-- A registry of a fare that is kept in a file. -/
def priced (fare : Number.Single) : Settings :=
  run schema (withConfig ⟨some "fare.json", .tree⟩)
    [.declareValue (.primitive .single) "fare" (.single fare) false .absent]

end Route

namespace Settings

/-- A short route is saved and loaded again. -/
theorem saved_loaded_unless_too_deep_line :
    let settings := Route.kept (Route.line 1)
    let saving := save Route.schema settings .absent
    Route.schema.Sound ∧ Reached Route.schema settings ∧ Typed Route.schema settings ∧
      (∀ name entry, settings.entries.get? name = some entry →
        Route.schema.NamesReadBack entry.type) ∧
      settings.config.path = some "stops.json" ∧ settings.config.format = .tree ∧
      saving.outcome = .ok () ∧ (Node.struct saving.sink).DoublesReadBack ∧
      (Node.struct saving.sink).depth ≤ Json.nestingLimit ∧
      (load Route.schema settings saving.file).outcome = .ok () := by
  intro settings saving
  have reached := Route.kept_reached (Route.line 1)
  have typed := Route.kept_typed (Route.line_typed 1)
  have names := Route.kept_names (Route.line 1)
  have saved : saving.outcome = .ok () := by decide +kernel
  have back : (Node.struct saving.sink).DoublesReadBack :=
    Node.exact_doubles_read_back _ (by decide +kernel)
  have shallow : (Node.struct saving.sink).depth ≤ Json.nestingLimit := by decide +kernel
  obtain ⟨loaded, -⟩ :=
    saved_loaded_unless_too_deep Route.sound reached typed names rfl rfl saved back
  exact ⟨Route.sound, reached, typed, names, rfl, rfl, saved, back, shallow, loaded shallow⟩

/-- Where the greatest fare is not read back, it is saved and not loaded. -/
example :
    let settings := Route.priced ⟨0x7f7fffff⟩
    let saving := save Route.schema settings .absent
    saving.outcome = .ok () ∧ (load Route.schema settings saving.file).outcome = .ok () ∧
      (@load Route.roundedUp Route.schema settings saving.file).outcome ≠ .ok () := by
  decide +kernel

/-- A long route is saved and cannot be loaded again. -/
theorem saved_not_always_loaded :
    ¬ ∀ settings file, Reached Route.schema settings → Typed Route.schema settings →
      (∀ name entry, settings.entries.get? name = some entry →
        Route.schema.NamesReadBack entry.type) →
      settings.config.path ≠ none → settings.config.format = .tree →
      (save Route.schema settings file).outcome = .ok () →
        (load Route.schema settings (save Route.schema settings file).file).outcome = .ok () := by
  intro claimed
  let settings := Route.kept (Route.line 125)
  have saved : (save Route.schema settings .absent).outcome = .ok () := by decide +kernel
  have beyond : Json.nestingLimit < (Node.struct (save Route.schema settings .absent).sink).depth := by
    decide +kernel
  have loaded := claimed settings .absent (Route.kept_reached _)
    (Route.kept_typed (Route.line_typed 125)) (Route.kept_names _) nofun rfl saved
  have backed : settings.config.path = some "stops.json" := rfl
  obtain ⟨written, text, dumped, file⟩ := save_ok backed rfl saved
  have back := Node.exact_doubles_read_back _ (Fields.dump_ok dumped).1
  obtain ⟨place, refused⟩ :=
    (Fields.dumped_text_read (written_distinct written) dumped back []).2 beyond
  rw [file, load_unreadable backed rfl refused] at loaded
  cases loaded

end Settings

end Marshal
