import Marshal.Proofs.Json.Acceptance
import Marshal.Proofs.Tree.Alteration

/-!
# Documents that are built step by step

A document is built out of an empty struct by requests that are made of the structs and arrays in it.
A serializer's handle is no more than the place of the container that it has opened, so calls on nested
handles are requests made of what lies deeper. Every request keeps the names of every struct distinct,
and so they are distinct in whatever is built.
-/

namespace Marshal

/-- One call of a serializer. What it opens is empty, and is filled by the calls on its handle. -/
inductive Call
  | put (scalar : Scalar)
  | openStruct
  | openArray

namespace Call

/-- What a call leaves at its place. -/
def node : Call → Node
  | put scalar => scalar.toNode
  | openStruct => .struct []
  | openArray => .ofSlots .empty

section Outlets

variable {Structs Arrays State : Type} {outlet : Outlet Structs Arrays State}

def make (outlet : Outlet Structs Arrays State) : Call → Step State
  | put scalar => outlet.put scalar
  | openStruct => outlet.withStruct .done
  | openArray => outlet.withArray .done

theorem make_maintains {structs : Structs → Prop} {arrays : Arrays → Prop} {holds : State → Prop}
    (place : outlet.Maintains structs arrays holds) (call : Call) :
    (call.make outlet).Maintains holds := by
  cases call with
  | put scalar => exact place.put scalar
  | openStruct => exact place.withStruct Step.done_maintains
  | openArray => exact place.withArray Step.done_maintains

end Outlets

theorem make_field (call : Call) (name : String) (fields : Fields) :
    call.make (treeSink.field name) fields = (.ok (), fields.put name call.node) := by
  cases call <;> rfl

end Call

/-- What may be asked of a struct of a document. -/
inductive Fields.Request
  | insert (name : String) (node : Node)
  | remove (name : String)
  | write (name : String) (call : Call)
  | setText (text : String)
  | dump

/-- What may be asked of an array of a document. -/
inductive Slots.Request
  | push (node : Node)
  | write (call : Call)
  | leaveEmpty

namespace Fields

section Texts

variable [Json.NumberReader]

theorem set_text_told {text : String} {pairs : List (String × Node)} (told : Json.Tells text pairs)
    (fields : Fields) : fields.setText text = (.ok (), merged pairs) := by
  rw [setText, Json.read_struct_iff.mpr ⟨pairs, told, rfl⟩]

/-- A text that tells of no entries is refused, and changes nothing. -/
theorem set_text_untold {text : String} (untold : ∀ pairs, ¬Json.Tells text pairs)
    (fields : Fields) :
    ∃ problem, fields.setText text = (.error (.of (.unreadableText problem)), fields) := by
  cases read : Json.readStruct text with
  | ok document =>
      obtain ⟨pairs, told, -⟩ := Json.read_struct_iff.mp read
      exact absurd told (untold pairs)
  | error problem => exact ⟨problem, by rw [setText, read]⟩

theorem set_text_failed {text : String} {fields next : Fields} {fault : Fault}
    (failed : fields.setText text = (.error fault, next)) : next = fields := by
  rw [setText] at failed
  split at failed <;> cases failed
  rfl

theorem set_text_distinct (text : String) {fields : Fields} (distinct : fields.Distinct) :
    Distinct (fields.setText text).2 := by
  by_cases told : ∃ pairs, Json.Tells text pairs
  · obtain ⟨pairs, told⟩ := told
    rw [set_text_told told]
    exact Node.merged_distinct (.struct pairs)
  · obtain ⟨problem, refused⟩ := set_text_untold (not_exists.mp told) fields
    rw [refused]
    exact distinct

end Texts

namespace Request

def perform [Json.NumberReader] : Request → Step Fields
  | insert name node => fun fields => (.ok (), fields.put name node)
  | remove name => fun fields => (.ok (), fields.erase name)
  | write name call => call.make (treeSink.field name)
  | setText text => fun fields => fields.setText text
  | dump => fun fields => (fields.dump.map fun _ => (), fields)

/-- The node that a request puts under a name, if that is what it asks for. -/
def written? : Request → Option (String × Node)
  | insert name node => some (name, node)
  | write name call => some (name, call.node)
  | _ => none

/-- The nodes that have to be built before a request can be made. -/
@[simp]
def given : Request → List Node
  | insert _ node => [node]
  | _ => []

variable [Json.NumberReader] {request : Request}

theorem perform_written {name : String} {node : Node} (written : request.written? = some (name, node))
    (fields : Fields) : request.perform fields = (.ok (), fields.put name node) := by
  cases request with
  | insert own inserted =>
      cases written
      rfl
  | write own call =>
      cases written
      exact call.make_field name fields
  | _ => cases written

/-- No request makes names repeat. -/
theorem perform_distinct (inside : ∀ node ∈ request.given, node.namesDistinct = true) :
    request.perform.Maintains Distinct := by
  intro fields distinct
  cases request with
  | insert name node => exact put_distinct distinct name (inside node (List.mem_singleton_self node))
  | remove name => exact erase_distinct distinct name
  | write name call => exact call.make_maintains (outlet_distinct name) fields distinct
  | setText text => exact set_text_distinct text distinct
  | dump => exact distinct

end Request

end Fields

namespace Slots.Request

def perform : Request → Step Slots
  | push node => fun slots => (.ok (), slots.push node)
  | write call => call.make treeSink.next
  | leaveEmpty => treeSink.next.leaveEmpty

@[simp]
def given : Request → List Node
  | push node => [node]
  | _ => []

theorem perform_distinct {request : Request}
    (inside : ∀ node ∈ request.given, node.namesDistinct = true) :
    request.perform.Maintains Distinct := by
  intro slots distinct
  cases request with
  | push node => exact push_distinct distinct (inside node (List.mem_singleton_self node))
  | write call => exact call.make_maintains outlet_distinct slots distinct
  | leaveEmpty => exact outlet_distinct.leaveEmpty slots distinct

end Slots.Request

namespace Node

/-- What a request leaves of a node. Only a struct can be asked. -/
def askedStruct [Json.NumberReader] (request : Fields.Request) : Node → Node
  | .struct fields => .struct (request.perform fields).2
  | node => node

def askedArray (request : Slots.Request) : Node → Node
  | .array items cursor => .ofSlots (request.perform ⟨items, cursor⟩).2
  | node => node

/-- Asks the struct that a trail leads to. -/
def atStruct [Json.NumberReader] (whole : Node) (trail : Trail) (request : Fields.Request) : Node :=
  whole.modify (askedStruct request) trail

def atArray (whole : Node) (trail : Trail) (request : Slots.Request) : Node :=
  whole.modify (askedArray request) trail

/-- What can be built: an empty struct, and what requests make of it that are made anywhere in it, with
nodes that are built in the same way. -/
inductive Built [Json.NumberReader] : Node → Prop
  | empty : Built (.struct [])
  | null : Built .null
  | scalar (scalar : Scalar) : Built scalar.toNode
  | array (items : List Node) (cursor : Nat) (each : ∀ item ∈ items, Built item) :
      Built (.array items cursor)
  | atStruct {whole : Node} (built : Built whole) (trail : Trail) (request : Fields.Request)
      (each : ∀ node ∈ request.given, Built node) : Built (whole.atStruct trail request)
  | atArray {whole : Node} (built : Built whole) (trail : Trail) (request : Slots.Request)
      (each : ∀ node ∈ request.given, Built node) : Built (whole.atArray trail request)

variable {whole : Node} {trail : Trail}

theorem asked_array_distinct {request : Slots.Request}
    (inside : ∀ node ∈ request.given, node.namesDistinct = true) {node : Node}
    (distinct : node.namesDistinct = true) : (askedArray request node).namesDistinct = true := by
  cases node with
  | array items cursor => exact Slots.Request.perform_distinct inside ⟨items, cursor⟩ distinct
  | _ => exact distinct

/-- A change that keeps names distinct does so anywhere in a document. -/
theorem modify_distinct {change : Node → Node}
    (keeps : ∀ node, node.namesDistinct = true → (change node).namesDistinct = true)
    (distinct : whole.namesDistinct = true) (trail : Trail) :
    (whole.modify change trail).namesDistinct = true := by
  cases found : whole.get? trail with
  | none => rw [modify_nowhere found, distinct]
  | some part =>
      have alike := modify_differs found change
      exact alike.next_distinct distinct (keeps part (alike.part_distinct distinct))

theorem struct_names_nodup (distinct : whole.namesDistinct = true) {fields : Fields}
    (found : whole.get? trail = some (.struct fields)) : fields.names.Nodup :=
  (names_distinct_struct.mp ((modify_differs found id).part_distinct distinct)).1

section Building

variable [Json.NumberReader]

theorem asked_struct_distinct {request : Fields.Request}
    (inside : ∀ node ∈ request.given, node.namesDistinct = true) {node : Node}
    (distinct : node.namesDistinct = true) : (askedStruct request node).namesDistinct = true := by
  cases node with
  | struct fields => exact Fields.Request.perform_distinct inside fields distinct
  | _ => exact distinct

theorem Built.distinct (built : whole.Built) : whole.namesDistinct = true := by
  -- The nodes that a request is given have been built themselves, so they come under the induction too.
  induction built with
  | empty => rfl
  | null => rfl
  | scalar scalar => exact scalar.names_distinct
  | array items cursor each induction => exact names_distinct_array.mpr induction
  | atStruct built trail request each induction given =>
      exact modify_distinct (fun _ => asked_struct_distinct given) induction trail
  | atArray built trail request each induction given =>
      exact modify_distinct (fun _ => asked_array_distinct given) induction trail

/-- Writing at a place of a sink makes no other documents than requests do. -/
theorem field_built (name : String) :
    (treeSink.field name).Maintains (fun fields => Built (.struct fields))
      (fun slots => Built (.ofSlots slots)) (fun fields => Built (.struct fields)) where
  put scalar fields built := built.atStruct [] (.write name (.put scalar)) (by simp)
  leaveEmpty fields built := built
  withStruct held fields built :=
    built.atStruct [] (.insert name (.struct _)) (by simpa using held [] .empty)
  withArray held fields built :=
    built.atStruct [] (.insert name (.ofSlots _))
      (by simpa using held .empty (.array [] 0 (by simp)))

theorem item_built :
    treeSink.next.Maintains (fun fields => Built (.struct fields))
      (fun slots => Built (.ofSlots slots)) (fun slots => Built (.ofSlots slots)) where
  put scalar slots built := built.atArray [] (.write (.put scalar)) (by simp)
  leaveEmpty slots built := built.atArray [] .leaveEmpty (by simp)
  withStruct held slots built :=
    built.atArray [] (.push (.struct _)) (by simpa using held [] .empty)
  withArray held slots built :=
    built.atArray [] (.push (.ofSlots _))
      (by simpa using held .empty (.array [] 0 (by simp)))

/-- Whatever values are written into a built document, it is built still. -/
theorem write_named_built (schema : Schema) (type : Ty) (value : Val) (name : String) :
    (schema.writeNamed type value name).Maintains fun fields => Built (.struct fields) :=
  schema.write_maintains ⟨field_built, item_built⟩ type value (field_built name)

/-- What comes of requests that are made of a struct somewhere in a document. -/
structure KeepsNames (whole : Node) (trail : Trail) (fields : Fields) : Prop where
  distinct : fields.names.Nodup
  /-- What is written under a name is taken in, and nothing else in the document is altered. Where it
  then stands, further requests can be made of it. -/
  written : ∀ request name node, request.written? = some (name, node) →
    ∃ next, request.perform fields = (.ok (), next) ∧ Fields.Receives name node fields next ∧
      DifferAt (.struct fields) (.struct next) trail whole (whole.atStruct trail request) ∧
      (whole.atStruct trail request).get? (trail ++ [.field name]) = some node
  removed : ∀ name, ∃ next, Fields.Request.perform (.remove name) fields = (.ok (), next) ∧
    next = fields.filter (fun field => field.1 ≠ name) ∧
    DifferAt (.struct fields) (.struct next) trail whole (whole.atStruct trail (.remove name))
  /-- Of a name that a text repeats the first position and the last node stay. -/
  told : ∀ text pairs, Json.Tells text pairs →
    ∃ next, Fields.Request.perform (.setText text) fields = (.ok (), next) ∧
      next.names = (Fields.names pairs).eraseDups ∧
      (∀ name, next.get? name = (Fields.get? pairs.reverse name).map merged) ∧
      DifferAt (.struct fields) (.struct next) trail whole (whole.atStruct trail (.setText text))
  untold : ∀ text, (∀ pairs, ¬Json.Tells text pairs) →
    ∃ fault, Fields.Request.perform (.setText text) fields = (.error fault, fields)
  failed : ∀ text fault next, Fields.Request.perform (.setText text) fields = (.error fault, next) →
    next = fields ∧ whole.atStruct trail (.setText text) = whole

theorem at_struct_differs {fields next : Fields} {request : Fields.Request}
    {outcome : Except Fault Unit} (found : whole.get? trail = some (.struct fields))
    (performed : request.perform fields = (outcome, next)) :
    DifferAt (.struct fields) (.struct next) trail whole (whole.atStruct trail request) := by
  have asked : askedStruct request (.struct fields) = .struct next := by
    rw [askedStruct, performed]
  rw [← asked]
  exact modify_differs found (askedStruct request)

/-- In every document that is built, all structs have distinct names; a name that is written anew keeps
its place, and a text that cannot be read changes nothing. -/
theorem built_documents_keep_names (built : whole.Built) :
    whole.namesDistinct = true ∧
      ∀ trail fields, whole.get? trail = some (.struct fields) →
        whole.KeepsNames trail fields := by
  refine ⟨built.distinct, ?_⟩
  intro trail fields found
  have distinct := struct_names_nodup built.distinct found
  refine ⟨distinct, ?written, ?removed, ?told, ?untold, ?failed⟩
  case written =>
    intro request name node written
    have performed := Fields.Request.perform_written written fields
    have alike := at_struct_differs found performed
    refine ⟨_, performed, Fields.put_receives fields name node, alike, ?_⟩
    rw [get_append, alike.leads, Option.bind_some, get?, Fields.get_put, if_pos rfl]
    rfl
  case removed =>
    intro name
    exact ⟨_, rfl, Fields.erase_filter distinct name, at_struct_differs found rfl⟩
  case told =>
    intro text pairs told
    have performed : Fields.Request.perform (.setText text) fields = (.ok (), Fields.merged pairs) :=
      Fields.set_text_told told fields
    exact ⟨_, performed, Fields.merged_names pairs, Fields.merged_get pairs,
      at_struct_differs found performed⟩
  case untold =>
    intro text untold
    obtain ⟨problem, refused⟩ := Fields.set_text_untold untold fields
    exact ⟨_, refused⟩
  case failed =>
    intro text fault next performed
    obtain rfl : next = fields := Fields.set_text_failed performed
    exact ⟨rfl, (at_struct_differs found performed).whole_eq rfl⟩

end Building

/-- Entries that repeat names at two levels. -/
def tariff : List (String × Node) :=
  [("stop", .text "north"), ("zones", .array [.struct [("zone", .uint 1), ("zone", .uint 2)]] 0),
    ("stop", .text "south")]

/-- What is built by reading the tariff's text, by opening a struct and writing into it, and by putting
another node under a name. -/
def ticket : Fields :=
  [("stop", .text "east"), ("zones", .array [.struct [("zone", .uint 2)]] 0),
    ("return", .struct [("zone", .uint 3)])]

theorem tariff_told : Json.Tells (Json.prettyText (.struct tariff)) tariff where
  spelled := Json.pretty_text_tokenized _ (Node.exact_doubles_read_back (.struct tariff) rfl)
  shallow := by decide

theorem ticket_built : Built (.struct ticket) := by
  have read : Fields.Request.perform (.setText (Json.prettyText (.struct tariff))) [] =
    (.ok (), Fields.merged tariff) := Fields.set_text_told tariff_told []
  have told := Built.empty.atStruct [] (.setText (Json.prettyText (.struct tariff))) (by simp)
  rw [atStruct, modify, askedStruct, read] at told
  have opened := told.atStruct [] (.write "return" .openStruct) (by simp)
  have filled := opened.atStruct [.field "return"] (.write "zone" (.put (.uint 3))) (by simp)
  have east : Built (.text "east") := .scalar (.text "east")
  exact filled.atStruct [] (.insert "stop" (.text "east")) (by simpa using east)

theorem built_documents_keep_names_ticket :
    Built (.struct ticket) ∧ (Node.struct ticket).namesDistinct = true ∧
      KeepsNames (.struct ticket) [] ticket ∧
      KeepsNames (.struct ticket) [.field "zones", .index 0] [("zone", .uint 2)] := by
  obtain ⟨distinct, keeps⟩ := built_documents_keep_names ticket_built
  exact ⟨ticket_built, distinct, keeps [] ticket rfl, keeps _ _ rfl⟩

end Node

end Marshal
