import Marshal.Settings.Entry

/-!
Named entries in name order, each written as a field of its name. Reading is all or nothing: the
values are decoded into copies, and only when every entry has been decoded do the copies replace
them. Names that a document has and the map has not are passed over with a warning.
-/

namespace Marshal

abbrev Entries := List (String × Entry)

namespace Entries

def get? (entries : Entries) (name : String) : Option Entry :=
  (entries.find? fun entry => entry.1 = name).map Prod.snd

def contains (entries : Entries) (name : String) : Bool := (entries.get? name).isSome

def names (entries : Entries) : List String := entries.map Prod.fst

/-- Adds an entry at its place in name order, or replaces the entry of its name. -/
def insert : Entries → String → Entry → Entries
  | [], name, entry => [(name, entry)]
  | (known, old) :: rest, name, entry =>
      if name < known then (name, entry) :: (known, old) :: rest
      else if name = known then (known, entry) :: rest
      else (known, old) :: insert rest name entry

def erase (entries : Entries) (name : String) : Entries :=
  entries.filter fun entry => entry.1 ≠ name

def write (schema : Schema) : Entries → Step Fields
  | [] => .done
  | (name, entry) :: rest =>
      ((schema.writeAny entry.type entry.value name).inField name).andThen (write schema rest)

def unknownWarnings (entries : Entries) (fields : Fields) : Log :=
  fields.names.flatMap fun name =>
    if entries.contains name then [] else Log.warning s!"ignoring unknown setting `{name}`"

/-- The entry with the value that a document has for it, if it has one. -/
def decodeEntry (schema : Schema) (name : String) (entry : Entry) (fields : Fields) :
    Reading Entry Fields :=
  if fields.holds name then
    let reading := schema.readAny entry.type entry.value name fields
    ⟨reading.outcome.mapError (Fault.inField name), ⟨entry.type, reading.container⟩,
      reading.source, reading.log⟩
  else ⟨.ok (), entry, fields, []⟩

def decodeAll (schema : Schema) : Entries → Fields → Reading Entries Fields
  | [], fields => ⟨.ok (), [], fields, []⟩
  | (name, entry) :: rest, fields =>
      let reading := decodeEntry schema name entry fields
      match reading.outcome with
      | .error fault => ⟨.error fault, [], reading.source, reading.log⟩
      | .ok () =>
          let others := decodeAll schema rest reading.source
          ⟨others.outcome, (name, reading.target) :: others.target, others.source,
            reading.log ++ others.log⟩

/-- Reads all entries that a document has. -/
def read (schema : Schema) (entries : Entries) (fields : Fields) : Reading Entries Fields :=
  let reading := decodeAll schema entries fields
  let log := unknownWarnings entries fields ++ reading.log
  match reading.outcome with
  | .ok () => ⟨.ok (), reading.target, reading.source, log⟩
  | .error fault => ⟨.error fault, entries, reading.source, log⟩

/-- Reads one entry alone and says whether the document has it. -/
def readEntry (schema : Schema) (entries : Entries) (name : String) (fields : Fields) :
    Except Fault Bool × Entries × Log :=
  match entries.get? name with
  | none => (.ok false, entries, [])
  | some entry =>
      if fields.holds name then
        let reading := decodeEntry schema name entry fields
        match reading.outcome with
        | .ok () => (.ok true, entries.insert name reading.target, reading.log)
        | .error fault => (.error fault, entries, reading.log)
      else (.ok false, entries, [])

/-- Writes the map as one value. -/
def writeAt {State : Type} (schema : Schema) (entries : Entries)
    (outlet : Outlet Fields Slots State) : Step State :=
  outlet.withStruct (write schema entries)

/-- Reads the map as one value. -/
def readAt {State : Type} (schema : Schema) (entries : Entries) (inlet : Inlet State)
    (state : State) : Reading Entries State :=
  match inlet.openStruct state with
  | (.error fault, next) => ⟨.error fault, entries, next, []⟩
  | (.ok child, next) =>
      let reading := read schema entries child
      ⟨reading.outcome, reading.target, inlet.storeStruct reading.source next, reading.log⟩

/-- A map by itself shows only that it holds settings. -/
def label (path : String) : Step Graph := fun graph => (.ok (), graph.node path "settings")

def describe (schema : Schema) (owner : String) : Entries → Step Graph
  | [] => .done
  | (name, entry) :: rest =>
      (Schema.within owner ("." ++ name) (schema.describe entry.type)).andThen
        (describe schema owner rest)

end Entries

end Marshal
