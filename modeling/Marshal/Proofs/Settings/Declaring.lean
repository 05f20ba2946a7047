import Marshal.Proofs.Json.RoundTrip
import Marshal.Proofs.Settings.Transfer

/-!
# What declaring a value comes to

Whether a type is bound and whether a name is in use decide what becomes of a declaration. Only a type
and a name that are both free are entered, with what the backing file makes of the value. Every row of
the table says what the registry is afterwards; in none of them is another setting touched.
-/

namespace Marshal

namespace Settings

/-- The value that a new setting starts with. A file that is there takes part with the field of the
setting's name, if it has one that is not null. -/
def backedValue [Json.NumberReader] (schema : Schema) (file : FileState) (config : SettingsConfig)
    (type : Ty) (name : String) (value : Val) : Except SettingsFault Val :=
  match config.path with
  | none => .ok value
  | some path =>
      match file.read with
      | .error .missing => .ok value
      | .error problem => .error (.io path problem)
      | .ok text =>
          match Json.readStruct text with
          | .error problem => .error (.marshal (.of (.unreadableText problem)))
          | .ok document =>
              if document.holds name then
                let reading := schema.readNamed type value name document
                match reading.outcome with
                | .ok () => .ok reading.target
                | .error fault => .error (.marshal (fault.inField name))
              else .ok value

/-- That a registry differs from the one before in one setting: the type is bound to the name and the
entry there is given, and if the type was bound to another name, that name is free. -/
structure ChangedIn (before after : Settings) (type : Ty) (name : String) (entry : Entry) : Prop where
  held : after.entries.get? name = some entry
  bound : after.boundName? type = some name
  former : ∀ old, before.boundName? type = some old → old ≠ name → after.entries.get? old = none
  entries : ∀ other, other ≠ name → before.boundName? type ≠ some other →
    after.entries.get? other = before.entries.get? other
  bindings : ∀ other, other ≠ type → after.boundName? other = before.boundName? other
  config : after.config = before.config

/-- The table that declarations go by. The conditions of its rows exclude each other, and one of them
is always met. -/
structure FollowsTable [Json.NumberReader] (schema : Schema) (file : FileState) (settings : Settings)
    (type : Ty) (name : String) (value : Val) (replace : Bool) (result : SettingsResult) : Prop where
  entered : settings.boundName? type = none → settings.entries.get? name = none →
    match backedValue schema file settings.config type name value with
    | .ok held =>
        result.outcome = .ok () ∧ ChangedIn settings result.settings type name (.of type held)
    | .error fault => result.outcome = .error fault ∧ result.settings = settings
  taken : settings.boundName? type = none →
    ∀ existing, settings.entries.get? name = some existing →
      result.outcome = .error (.nameTaken name existing.type.name) ∧ result.settings = settings
  replaced : settings.boundName? type = some name → replace = true →
    result.outcome = .ok () ∧ ChangedIn settings result.settings type name (.of type value)
  kept : settings.boundName? type = some name → replace = false →
    result.outcome = .ok () ∧ result.settings = settings
  elsewhere : ∀ bound, settings.boundName? type = some bound → bound ≠ name → replace = false →
    result.outcome = .error (.typeAlreadyDeclared type.name bound) ∧ result.settings = settings
  takenElsewhere : ∀ bound, settings.boundName? type = some bound → bound ≠ name →
    replace = true → ∀ existing, settings.entries.get? name = some existing →
      result.outcome = .error (.nameTaken name existing.type.name) ∧ result.settings = settings
  moved : ∀ bound, settings.boundName? type = some bound → bound ≠ name → replace = true →
    settings.entries.get? name = none →
      result.outcome = .ok () ∧ ChangedIn settings result.settings type name (.of type value)

section Changes

variable {settings : Settings} {type : Ty} {name : String}

theorem bind_changes (unbound : settings.boundName? type = none) (entry : Entry) :
    ChangedIn settings (settings.bind type name entry) type name entry where
  held := by rw [Settings.bind, Entries.get_insert, if_pos rfl]
  bound := by rw [bound_bind, if_pos rfl]
  former old same := by
    rw [unbound] at same
    cases same
  entries other different _ := by rw [Settings.bind, Entries.get_insert, if_neg different.symm]
  bindings other different := by rw [bound_bind, if_neg different.symm]
  config := rfl

theorem insert_changes (bound : settings.boundName? type = some name) (entry : Entry) :
    ChangedIn settings { settings with entries := settings.entries.insert name entry } type name
      entry where
  held := by rw [Entries.get_insert, if_pos rfl]
  bound := bound
  former old same different := by
    rw [bound] at same
    exact absurd (Option.some.inj same).symm different
  entries other different _ := by rw [Entries.get_insert, if_neg different.symm]
  bindings _ _ := rfl
  config := rfl

theorem move_changes {old : String} (bound : settings.boundName? type = some old)
    (different : old ≠ name) (entry : Entry) :
    ChangedIn settings ((settings.unbind type old).bind type name entry) type name entry where
  held := by rw [Settings.bind, Entries.get_insert, if_pos rfl]
  bound := by rw [bound_bind, if_pos rfl]
  former other same _ := by
    rw [bound] at same
    obtain rfl := Option.some.inj same
    rw [Settings.bind, Entries.get_insert, if_neg different.symm, Settings.unbind,
      Entries.get_erase, if_pos rfl]
  entries other apart kept := by
    have still : old ≠ other := fun same => kept (bound.trans (congrArg some same))
    rw [Settings.bind, Entries.get_insert, if_neg apart.symm, Settings.unbind, Entries.get_erase,
      if_neg still]
  bindings other apart := by rw [bound_bind, if_neg apart.symm, bound_unbind, if_neg apart.symm]
  config := rfl

end Changes

section Loading

variable [Json.NumberReader] (schema : Schema) (file : FileState) (settings : Settings) (type : Ty)
  (name : String) (value : Val)

/-- An entry that has just been made is loaded with what the file makes of its value. -/
theorem load_bound :
    let loaded := loadEntry schema file (settings.bind type name (.of type value)) name
    match backedValue schema file settings.config type name value with
    | .ok held =>
        loaded.outcome = .ok () ∧ loaded.settings = settings.bind type name (.of type held)
    | .error fault => loaded.outcome = .error fault := by
  intro loaded
  have made : (settings.bind type name (.of type value)).entries.get? name =
      some (.of type value) := by rw [Settings.bind, Entries.get_insert, if_pos rfl]
  have again (held : Val) :
      (settings.bind type name (.of type value)).entries.insert name (.of type held) =
        (settings.bind type name (.of type held)).entries := Entries.insert_insert _ _ _ _
  have configured : (settings.bind type name (.of type value)).config = settings.config := rfl
  simp only [loaded, loadEntry, backingText, backedValue, configured]
  cases settings.config.path with
  | none => exact ⟨rfl, rfl⟩
  | some path =>
      cases file.read with
      | error problem =>
          cases problem with
          | missing => exact ⟨rfl, rfl⟩
          | _ => rfl
      | ok content =>
          simp only [Fields.setText]
          cases Json.readStruct content with
          | error problem => rfl
          | ok document =>
              simp only [Entries.readEntry, made]
              cases holds : document.holds name with
              | false => exact ⟨rfl, rfl⟩
              | true =>
                  simp only [if_true, Entries.decode_present schema holds]
                  cases (schema.readNamed type value name document).outcome with
                  | error fault => rfl
                  | ok done =>
                      exact ⟨rfl, congrArg
                        (fun entries => { settings.bind type name (.of type value) with entries })
                        (again _)⟩

theorem insert_and_load_backed (unbound : settings.boundName? type = none)
    (free : settings.entries.get? name = none) :
    let result := insertAndLoad schema file settings type name value
    match backedValue schema file settings.config type name value with
    | .ok held =>
        result.outcome = .ok () ∧ ChangedIn settings result.settings type name (.of type held)
    | .error fault => result.outcome = .error fault ∧ result.settings = settings := by
  intro result
  have loaded := load_bound schema file settings type name value
  have failed := insert_and_load_failed schema file settings type name value unbound free
  cases backed : backedValue schema file settings.config type name value with
  | ok held =>
      rw [backed] at loaded
      obtain ⟨outcome, changed⟩ := loaded
      simp only [result, insertAndLoad, outcome, accept]
      rw [changed]
      exact ⟨trivial, bind_changes unbound _⟩
  | error fault =>
      rw [backed] at loaded
      have refused : result.outcome = .error fault := by
        simp only [result, insertAndLoad, loaded, refuse]
      exact ⟨refused, failed fault refused⟩

end Loading

section Table

variable [Json.NumberReader] {schema : Schema} {file : FileState} {settings : Settings} {type : Ty}
  {name : String} {value : Val} {replace : Bool}

theorem declare_value_table (consistent : Consistent settings) :
    FollowsTable schema file settings type name value replace
      (declareValue schema file settings type name value replace) where
  entered unbound free := by
    simp only [declareValue, unbound, free]
    exact insert_and_load_backed schema file settings type name value unbound free
  taken unbound existing found := by
    simp only [declareValue, unbound, found]
    exact ⟨rfl, rfl⟩
  replaced bound asked := by
    obtain ⟨entry, found, ofType⟩ := (consistent.bound_iff type name).mp bound
    simp only [declareValue, bound, if_true, asked, found, ofType]
    exact ⟨rfl, insert_changes bound _⟩
  kept bound asked := by
    simp only [declareValue, bound, if_true, asked]
    exact ⟨rfl, rfl⟩
  elsewhere old bound different asked := by
    simp only [declareValue, bound, if_neg different, asked]
    exact ⟨rfl, rfl⟩
  takenElsewhere old bound different asked existing found := by
    simp only [declareValue, bound, if_neg different, if_true, asked, found]
    exact ⟨rfl, rfl⟩
  moved old bound different asked free := by
    simp only [declareValue, bound, if_neg different, if_true, asked, free]
    exact ⟨rfl, move_changes bound different _⟩

/-- A row that changes the registry does so at a name that is free or already the type's own. -/
theorem FollowsTable.changes {result : SettingsResult}
    (follows : FollowsTable schema file settings type name value replace result) :
    result.settings = settings ∨
      (∃ entry, ChangedIn settings result.settings type name entry) ∧
        (settings.entries.get? name = none ∨ settings.boundName? type = some name) := by
  cases bound : settings.boundName? type with
  | none =>
      cases found : settings.entries.get? name with
      | some existing => exact .inl (follows.taken bound existing found).2
      | none =>
          have entered := follows.entered bound found
          cases backed : backedValue schema file settings.config type name value with
          | error fault =>
              rw [backed] at entered
              exact .inl entered.2
          | ok held =>
              rw [backed] at entered
              exact .inr ⟨⟨_, entered.2⟩, .inl rfl⟩
  | some old =>
      by_cases same : old = name
      · subst same
        cases asked : replace with
        | false => exact .inl (follows.kept bound asked).2
        | true => exact .inr ⟨⟨_, (follows.replaced bound asked).2⟩, .inr rfl⟩
      · cases asked : replace with
        | false => exact .inl (follows.elsewhere old bound same asked).2
        | true =>
            cases found : settings.entries.get? name with
            | some existing =>
                exact .inl (follows.takenElsewhere old bound same asked existing found).2
            | none => exact .inr ⟨⟨_, (follows.moved old bound same asked found).2⟩, .inl rfl⟩

/-- No setting of another type is lost or moved, because a name that a type is bound to is not the name
of an entry of another one. -/
theorem FollowsTable.others_stay {result : SettingsResult} (consistent : Consistent settings)
    (follows : FollowsTable schema file settings type name value replace result) {other : String}
    {entry : Entry} (found : settings.entries.get? other = some entry) (apart : entry.type ≠ type) :
    result.settings.entries.get? other = some entry ∧
      result.settings.boundName? entry.type = some other := by
  have bound : settings.boundName? entry.type = some other :=
    (consistent.bound_iff entry.type other).mpr ⟨entry, found, rfl⟩
  have unbound : settings.boundName? type ≠ some other := by
    intro own
    obtain ⟨present, same, ofType⟩ := (consistent.bound_iff type other).mp own
    obtain rfl := Option.some.inj (found.symm.trans same)
    exact apart ofType
  rcases follows.changes with same | ⟨⟨changed, changes⟩, suits⟩
  · rw [same]
    exact ⟨found, bound⟩
  · have different : other ≠ name := by
      rintro rfl
      rcases suits with free | own
      · cases found.symm.trans free
      · exact unbound own
    rw [changes.entries other different unbound, changes.bindings _ apart]
    exact ⟨found, bound⟩

end Table

/-- Declaring a value goes by the table in every registry that calls can lead to. The file matters for
a type that is not bound yet only, and every setting of another type stays where and as it is. -/
theorem declaring_follows_table [Json.NumberReader] (schema : Schema) (settings : Settings)
    (reached : Reached schema settings) (file : FileState) (type : Ty) (name : String) (value : Val)
    (replace : Bool) :
    let result := declareValue schema file settings type name value replace
    FollowsTable schema file settings type name value replace result ∧
      (settings.boundName? type ≠ none →
        ∀ other, declareValue schema other settings type name value replace = result) ∧
      ∀ other entry, settings.entries.get? other = some entry → entry.type ≠ type →
        result.settings.entries.get? other = some entry ∧
          result.settings.boundName? entry.type = some other := by
  intro result
  have follows : FollowsTable schema file settings type name value replace result :=
    declare_value_table reached.consistent
  refine ⟨follows, fun bound other => ?_, fun other entry => follows.others_stay reached.consistent⟩
  obtain ⟨old, bound⟩ := Option.ne_none_iff_exists'.mp bound
  simp only [result, declareValue, bound]

end Settings

namespace Route

open Settings

/-- Preferences that are kept in a file, the stop to start from being declared so far. -/
def filed : Settings :=
  run schema (withConfig ⟨some "route.json", .tree⟩)
    [.declareValue (.record "Stop") "home" (stop "North" [] .absent 12) false .absent]

theorem filed_config : filed.config = ⟨some "route.json", .tree⟩ := rfl

/-- Preferences with a limit and with another home, and the file they have been saved to. -/
def preferred : Fields := [("limit", .uint 5), ("home", .struct [("name", .text "South")])]

def preferredFile : FileState := .text (Json.prettyText (.struct preferred))

theorem limit_backed :
    backedValue schema preferredFile ⟨some "route.json", .tree⟩ count "limit" .absent =
      .ok (.present (.int 5)) := by
  have back := Node.exact_doubles_read_back (.struct preferred) (by decide)
  have parsed : Json.readStruct (Json.prettyText (.struct preferred)) = .ok preferred :=
    Json.read_struct_pretty preferred (by decide) back (by decide)
  simp only [backedValue, preferredFile, FileState.read, parsed]
  cbv

end Route

/-- A limit that is declared is the one in the file. The home is not looked up there again. -/
theorem Settings.declaring_follows_table_limit :
    let result :=
      declareValue Route.schema Route.preferredFile Route.filed Route.count "limit" .absent false
    Reached Route.schema Route.filed ∧ result.outcome = .ok () ∧
      result.settings.entries.get? "limit" = some (.of Route.count (.present (.int 5))) ∧
      result.settings.entries.get? "home" =
        some (.of (.record "Stop") (Route.stop "North" [] .absent 12)) := by
  intro result
  have reached : Reached Route.schema Route.filed := ⟨_, _, rfl⟩
  obtain ⟨follows, -, stay⟩ := declaring_follows_table Route.schema Route.filed reached
    Route.preferredFile Route.count "limit" .absent false
  have entered := follows.entered rfl rfl
  rw [Route.filed_config, Route.limit_backed] at entered
  exact ⟨reached, entered.1, entered.2.held, (stay "home" _ rfl (by decide)).1⟩

end Marshal
