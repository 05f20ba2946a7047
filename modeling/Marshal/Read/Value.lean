import Marshal.Log
import Marshal.Read.Source
import Marshal.Write.Value

/-!
Reading values from a source. A reading always says what it leaves behind, in the target as well
as in the source. Scalars, texts, enumerators and optionals are replaced once they have been
read; sequences and maps are emptied when their container is open and refilled; structures,
tuples and boxes are read into in place. As for writing, `readAt` works on one structure level
and `readStructure` stacks levels, here as many as the document is deep.
-/

namespace Marshal

structure Reading (Target State : Type) where
  outcome : Except Fault Unit
  target : Target
  source : State
  log : Log

namespace Reading

variable {Target State : Type}

/-- Puts earlier records before those of a reading. -/
def after (earlier : Log) (reading : Reading Target State) : Reading Target State :=
  { reading with log := earlier ++ reading.log }

end Reading

section Containers

variable {Item Contents : Type}

/-- Reads the elements that are left, one after the other. The bound is never met by a reading
that moves on with each element. -/
def readElements (read : Slots → Reading Item Slots) (add : Contents → Item → Contents) :
    Nat → Contents → Slots → Reading Contents Slots
  | 0, contents, slots => ⟨.ok (), contents, slots, []⟩
  | bound + 1, contents, slots =>
      if slots.isComplete then ⟨.ok (), contents, slots, []⟩
      else
        let reading := read slots
        match reading.outcome with
        | .error fault =>
            ⟨.error (fault.atIndex slots.cursor), contents, reading.source, reading.log⟩
        | .ok () =>
            (readElements read add bound (add contents reading.target) reading.source).after
              reading.log

/-- Reads the named fields one after the other as entries of a map. -/
def readEntries (naming : KeyNaming) (keyType : String)
    (read : String → Fields → Reading Val Fields) :
    List String → List (Val × Val) → Fields → Reading (List (Val × Val)) Fields
  | [], entries, fields => ⟨.ok (), entries, fields, []⟩
  | name :: rest, entries, fields =>
      match naming.ofName? name with
      | none => ⟨.error (.of (.keyNotReadable name keyType)), entries, fields, []⟩
      | some key =>
          let reading := read name fields
          match reading.outcome with
          | .error fault => ⟨.error (fault.inField name), entries, reading.source, reading.log⟩
          | .ok () =>
              (readEntries naming keyType read rest
                (Val.insertEntry entries (.text key) reading.target) reading.source).after
                reading.log

/-- Reads one element of an array as a record of a key and a value. -/
def readRecord (readKey readValue : Fields → Reading Val Fields) (slots : Slots) :
    Reading (Val × Val) Slots :=
  match Slots.inlet.openStruct slots with
  | (.error fault, next) => ⟨.error fault, (.absent, .absent), next, []⟩
  | (.ok record, next) =>
      let key := readKey record
      match key.outcome with
      | .error fault =>
          ⟨.error (fault.inField keyField), (key.target, .absent),
            Slots.inlet.storeStruct key.source next, key.log⟩
      | .ok () =>
          let value := readValue key.source
          ⟨value.outcome.mapError (Fault.inField valueField), (key.target, value.target),
            Slots.inlet.storeStruct value.source next, key.log ++ value.log⟩

end Containers

/-- Replaces the target by what a place holds, if it can be taken as one. -/
def readScalar {State : Type} (inlet : Inlet State) (decode : AnyValue → Except Fault Val)
    (target : Val) (state : State) : Reading Val State :=
  match inlet.value state with
  | (.error fault, next) => ⟨.error fault, target, next, []⟩
  | (.ok source, next) =>
      match decode source with
      | .error fault => ⟨.error fault, target, next, []⟩
      | .ok value => ⟨.ok (), value, next, []⟩

/-- Turns the reading of an optional's content into that of the optional. What cannot be read is
left out, unless a declaration is broken; an element that the failed reading has not used up is
passed over. -/
def settleOptional {State : Type} (inlet : Inlet State) (contentType : Ty) (target : Val)
    (state : State) (content : Reading Val State) : Reading Val State :=
  match content.outcome with
  | .ok () => ⟨.ok (), .present content.target, content.source, content.log⟩
  | .error fault =>
      if fault.isAbsorbable then
        let log := content.log ++
          Log.debug s!"optional `{contentType.name}` reset to none: {fault.message}"
        if inlet.position content.source = inlet.position state ∧
            inlet.isExhausted content.source = false then
          match inlet.skip content.source with
          | (.ok (), next) => ⟨.ok (), .absent, next, log⟩
          | (.error fault, next) => ⟨.error fault, target, next, log⟩
        else ⟨.ok (), .absent, content.source, log⟩
      else ⟨.error fault, target, content.source, content.log⟩

namespace Schema

section Level

variable (schema : Schema) (deeper : String → Val → Fields → Reading Val Fields)

mutual

def readAt (type : Ty) (target : Val) {State : Type} (inlet : Inlet State) (state : State) :
    Reading Val State :=
  match type with
  | .primitive scalar => readScalar inlet scalar.narrow target state
  | .string => readScalar inlet (fun source => source.getOrFault .string) target state
  | .textual _ => readScalar inlet (fun source => source.getOrFault .string) target state
  | .enumeration name =>
      readScalar inlet
        (fun source =>
          match source.getOrFault .string with
          | .error fault => .error fault
          | .ok text => ((schema.enumerationInfo name).codeOf text.asText).map Val.enumerator)
        target state
  | .record name =>
      match inlet.openStruct state with
      | (.error fault, next) => ⟨.error fault, target, next, []⟩
      | (.ok child, next) =>
          let reading := deeper name target child
          ⟨reading.outcome, reading.target, inlet.storeStruct reading.source next, reading.log⟩
  | .option inner =>
      if inlet.isExhausted state then ⟨.ok (), .absent, state, []⟩
      else if inlet.holdsValue state then
        settleOptional inlet inner target state
          (readAt inner (schema.default inner) inlet state)
      else
        let skipped := inlet.skip state
        ⟨skipped.1, .absent, skipped.2, []⟩
  | .sequence _ item =>
      match inlet.openArray state with
      | (.error fault, next) => ⟨.error fault, target, next, []⟩
      | (.ok child, next) =>
          let reading :=
            readElements (fun slots => readAt item (schema.default item) Slots.inlet slots)
              (fun items element => items ++ [element]) child.items.length [] child
          let state := inlet.storeArray reading.source next
          ⟨reading.outcome, .list reading.target, state, reading.log⟩
  | .map _ keyType valueType =>
      match schema.keyNaming? keyType with
      | some naming =>
          match inlet.openStruct state with
          | (.error fault, next) => ⟨.error fault, target, next, []⟩
          | (.ok child, next) =>
              let reading := readEntries naming keyType.name
                (fun name fields =>
                  readAt valueType (schema.default valueType) (Fields.inlet name) fields)
                child.names [] child
              ⟨reading.outcome, .map reading.target, inlet.storeStruct reading.source next,
                reading.log⟩
      | none =>
          match inlet.openArray state with
          | (.error fault, next) => ⟨.error fault, target, next, []⟩
          | (.ok child, next) =>
              let reading := readElements
                (readRecord
                  (readAt keyType (schema.default keyType) (Fields.inlet keyField))
                  (readAt valueType (schema.default valueType) (Fields.inlet valueField)))
                (fun entries entry => Val.insertEntry entries entry.1 entry.2)
                child.items.length [] child
              ⟨reading.outcome, .map reading.target, inlet.storeArray reading.source next,
                reading.log⟩
  | .tuple slots =>
      match inlet.openArray state with
      | (.error fault, next) => ⟨.error fault, target, next, []⟩
      | (.ok child, next) =>
          let reading := readSlots slots.length 0 slots target.slots child
          ⟨reading.outcome, .tuple reading.target, inlet.storeArray reading.source next,
            reading.log⟩
  | .boxed inner => readAt inner target inlet state

/-- Reads the slots of a tuple from `position` on, each in place. -/
def readSlots (arity position : Nat) (types : List Ty) (targets : List Val) (slots : Slots) :
    Reading (List Val) Slots :=
  match types with
  | [] =>
      if slots.isComplete then ⟨.ok (), targets, slots, []⟩
      else ⟨.error (.of (.tupleContinues arity)), targets, slots, []⟩
  | type :: types =>
      if slots.isComplete then ⟨.error (.of (.tupleEnded arity position)), targets, slots, []⟩
      else
        let reading := readAt type (targets.head?.getD (schema.default type)) Slots.inlet slots
        match reading.outcome with
        | .error fault =>
            ⟨.error (fault.atIndex position), reading.target :: targets.tail, reading.source,
              reading.log⟩
        | .ok () =>
            let rest := readSlots arity (position + 1) types targets.tail reading.source
            ⟨rest.outcome, reading.target :: rest.target, rest.source, reading.log ++ rest.log⟩

end

mutual

/-- An extending member reads at its owner's level and adds nothing to a fault's trail. -/
def readMember (owner : Val) (fields : Fields) : Member → Reading Val Fields
  | .field head type =>
      let reading := readAt schema deeper type
        (memberValue owner head.path (schema.default type)) (Fields.inlet head.name) fields
      ⟨reading.outcome.mapError (Fault.inField head.name), owner.set head.path reading.target,
        reading.source, reading.log⟩
  | .extend head base members =>
      let reading := readMembers
        (memberValue owner head.path (schema.structureInfo base).initial) fields members
      ⟨reading.outcome, owner.set head.path reading.target, reading.source, reading.log⟩

def readMembers (owner : Val) (fields : Fields) : List Member → Reading Val Fields
  | [] => ⟨.ok (), owner, fields, []⟩
  | member :: rest =>
      let reading := readMember owner fields member
      match reading.outcome with
      | .error fault => ⟨.error fault, reading.target, reading.source, reading.log⟩
      | .ok () => (readMembers reading.target reading.source rest).after reading.log

end

end Level

/-- Reads all members of a structure from an open struct. -/
def readStructure (schema : Schema) : Nat → String → Val → Fields → Reading Val Fields
  | 0, _, target, fields => ⟨.ok (), target, fields, []⟩
  | levels + 1, name, target, fields =>
      match (schema.structureInfo name).members with
      | .error fault => ⟨.error fault, target, fields, []⟩
      | .ok members => readMembers schema (readStructure schema levels) target fields members

def readObject (schema : Schema) (name : String) (target : Val) (fields : Fields) :
    Reading Val Fields :=
  readStructure schema (Node.depth (.struct fields)) name target fields

/-- Reads a value from one place. -/
def read (schema : Schema) (type : Ty) (target : Val) {State : Type} (inlet : Inlet State)
    (state : State) : Reading Val State :=
  readAt schema (readObject schema) type target inlet state

def readNamed (schema : Schema) (type : Ty) (target : Val) (name : String) (fields : Fields) :
    Reading Val Fields :=
  schema.read type target (Fields.inlet name) fields

def readNext (schema : Schema) (type : Ty) (target : Val) (slots : Slots) : Reading Val Slots :=
  schema.read type target Slots.inlet slots

end Schema

end Marshal
