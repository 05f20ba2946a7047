import Marshal.Graph.Describe
import Mathlib.Data.List.Nodup

/-!
# The course of a description

What describing asks for is told rule by rule, with no bound on how deep it goes: a type that has a
caption labels its node and goes on to its parts, a structure enters the stack, describes what it
has declared and leaves the stack, and the first fault ends all that is under way. A course is a
finite run of these rules, so what has a course comes to an end. It keeps the structures that were
expanded, each with those expanded inside of it.
-/

namespace Marshal

/-- A structure that was expanded, with what was expanded inside of it. -/
inductive Expansion
  | node (name : String) (inside : List Expansion)

namespace Expansion

mutual

/-- That no structure is expanded inside of itself, nor inside of those around. -/
def Apart (around : List String) : Expansion → Prop
  | .node name inside => name ∉ around ∧ ApartAll (name :: around) inside

def ApartAll (around : List String) : List Expansion → Prop
  | [] => True
  | expansion :: rest => Apart around expansion ∧ ApartAll around rest

end

theorem apart_all_append {around : List String} {first second : List Expansion} :
    ApartAll around (first ++ second) ↔ ApartAll around first ∧ ApartAll around second := by
  induction first with
  | nil => simp [ApartAll]
  | cons expansion rest induction => simp [ApartAll, induction, and_assoc]

end Expansion

/-- What there can be to describe: a type at a path, parts or members below an owner, a structure
at a path, all members of a structure below an owner, and what a structure has declared. -/
inductive Topic
  | type (type : Ty) (path : String)
  | parts (parts : List (String × Ty)) (owner : String)
  | members (members : List Member) (owner : String)
  | object (name path : String)
  | extension (name owner : String)
  | declared (name owner : String)

namespace Schema

/-- The slots of a tuple as parts, numbered from a position on. -/
def slotParts (position : Nat) : List Ty → List (String × Ty)
  | [] => []
  | slot :: rest => ("." ++ toString position, slot) :: slotParts (position + 1) rest

/-- The types that are labelled by themselves, with their captions and their parts. -/
inductive Shows (schema : Schema) : Ty → String → List (String × Ty) → Prop
  | primitive {scalar : Primitive} : Shows schema (.primitive scalar) scalar.wideKind.name []
  | string : Shows schema .string "string" []
  | textual {name : String} : Shows schema (.textual name) "string" []
  | enumeration {name : String} {table : EnumTable Int}
      (built : (schema.enumerationInfo name).table = .ok table) :
      Shows schema (.enumeration name) (enumerationLabel (schema.enumerationInfo name) table) []
  | option {inner : Ty} : Shows schema (.option inner) "optional" [("?", inner)]
  | sequence {kind : SequenceKind} {item : Ty} :
      Shows schema (.sequence kind item) "sequence" [("[]", item)]
  | named_map {kind : MapKind} {key value : Ty} {naming : KeyNaming}
      (named : schema.keyNaming? key = some naming) :
      Shows schema (.map kind key value) "map" [(".*", value)]
  | paired_map {kind : MapKind} {key value : Ty} (unnamed : schema.keyNaming? key = none) :
      Shows schema (.map kind key value) "map" [(".key", key), (".value", value)]
  | tuple {slots : List Ty} : Shows schema (.tuple slots) "tuple" (slotParts 0 slots)

/-- That describing takes its course: from one graph, with what it expands, to an outcome and the
graph that it leaves. -/
inductive Course (schema : Schema) :
    Topic → Graph → List Expansion → Except Fault Unit → Graph → Prop
  | labelled {type : Ty} {text path : String} {parts : List (String × Ty)} {graph left : Graph}
      {inside : List Expansion} {outcome : Except Fault Unit} (shows : schema.Shows type text parts)
      (further : Course schema (.parts parts path) (graph.node path text) inside outcome left) :
      Course schema (.type type path) graph inside outcome left
  | tableless {name path : String} {fault : Fault} {graph : Graph}
      (failed : (schema.enumerationInfo name).table = .error fault) :
      Course schema (.type (.enumeration name) path) graph [] (.error fault) graph
  | boxed {inner : Ty} {path : String} {graph left : Graph} {inside : List Expansion}
      {outcome : Except Fault Unit}
      (further : Course schema (.type inner path) graph inside outcome left) :
      Course schema (.type (.boxed inner) path) graph inside outcome left
  | record {name path : String} {graph left : Graph} {inside : List Expansion}
      {outcome : Except Fault Unit}
      (further : Course schema (.object name path) graph inside outcome left) :
      Course schema (.type (.record name) path) graph inside outcome left
  | no_parts {owner : String} {graph : Graph} :
      Course schema (.parts [] owner) graph [] (.ok ()) graph
  | part {suffix owner : String} {type : Ty} {rest : List (String × Ty)}
      {graph between left : Graph} {inside others : List Expansion} {outcome : Except Fault Unit}
      (own : Course schema (.type type (owner ++ suffix)) (graph.child owner suffix) inside (.ok ())
        between)
      (further : Course schema (.parts rest owner) between others outcome left) :
      Course schema (.parts ((suffix, type) :: rest) owner) graph (inside ++ others) outcome left
  | part_stops {suffix owner : String} {type : Ty} {rest : List (String × Ty)} {graph left : Graph}
      {inside : List Expansion} {fault : Fault}
      (own : Course schema (.type type (owner ++ suffix)) (graph.child owner suffix) inside
        (.error fault) left) :
      Course schema (.parts ((suffix, type) :: rest) owner) graph inside (.error fault) left
  | no_members {owner : String} {graph : Graph} :
      Course schema (.members [] owner) graph [] (.ok ()) graph
  | field {head : MemberHead} {type : Ty} {owner : String} {rest : List Member}
      {graph between left : Graph} {inside others : List Expansion} {outcome : Except Fault Unit}
      (own : Course schema (.type type (owner ++ ("." ++ head.name)))
        (graph.child owner ("." ++ head.name)) inside (.ok ()) between)
      (further : Course schema (.members rest owner) between others outcome left) :
      Course schema (.members (.field head type :: rest) owner) graph (inside ++ others) outcome left
  | field_stops {head : MemberHead} {type : Ty} {owner : String} {rest : List Member}
      {graph left : Graph} {inside : List Expansion} {fault : Fault}
      (own : Course schema (.type type (owner ++ ("." ++ head.name)))
        (graph.child owner ("." ++ head.name)) inside (.error fault) left) :
      Course schema (.members (.field head type :: rest) owner) graph inside
        (.error (fault.inField head.name)) left
  /-- An extension is described by what the extended structure has declared. -/
  | extend {head : MemberHead} {base owner : String} {members rest : List Member}
      {graph between left : Graph} {inside others : List Expansion} {outcome : Except Fault Unit}
      (own : Course schema (.extension base owner) graph inside (.ok ()) between)
      (further : Course schema (.members rest owner) between others outcome left) :
      Course schema (.members (.extend head base members :: rest) owner) graph (inside ++ others)
        outcome left
  | extend_stops {head : MemberHead} {base owner : String} {members rest : List Member}
      {graph left : Graph} {inside : List Expansion} {fault : Fault}
      (own : Course schema (.extension base owner) graph inside (.error fault) left) :
      Course schema (.members (.extend head base members :: rest) owner) graph inside (.error fault)
        left
  | recursive {name path : String} {graph : Graph} (visiting : name ∈ graph.visiting) :
      Course schema (.object name path) graph [] (.ok ())
        (graph.node path ((schema.structureInfo name).label ++ " (recursive)"))
  | expanded {name path : String} {graph left : Graph} {inside : List Expansion}
      {outcome : Except Fault Unit} (new : name ∉ graph.visiting)
      (further : Course schema (.declared name path)
        ((graph.node path (schema.structureInfo name).label).enter name) inside outcome left) :
      Course schema (.object name path) graph [.node name inside] outcome left.leave
  | passed {name owner : String} {graph : Graph} (visiting : name ∈ graph.visiting) :
      Course schema (.extension name owner) graph [] (.ok ()) graph
  | extended {name owner : String} {graph left : Graph} {inside : List Expansion}
      {outcome : Except Fault Unit} (new : name ∉ graph.visiting)
      (further : Course schema (.declared name owner) (graph.enter name) inside outcome left) :
      Course schema (.extension name owner) graph [.node name inside] outcome left.leave
  | undeclared {name owner : String} {graph : Graph} {fault : Fault}
      (failed : (schema.structureInfo name).members = .error fault) :
      Course schema (.declared name owner) graph [] (.error fault) graph
  | declared {name owner : String} {graph left : Graph} {members : List Member}
      {inside : List Expansion} {outcome : Except Fault Unit}
      (built : (schema.structureInfo name).members = .ok members)
      (further : Course schema (.members members owner) graph inside outcome left) :
      Course schema (.declared name owner) graph inside outcome left

variable {schema : Schema} {topic : Topic} {graph left : Graph} {inside : List Expansion}
variable {outcome : Except Fault Unit}

/-- A course leaves the stack as it was, also where a fault ends it: what has been entered is left
again by whoever has entered it. -/
theorem Course.balanced (course : schema.Course topic graph inside outcome left) :
    left.visiting = graph.visiting := by
  induction course with
  | labelled _ _ further => exact further
  | tableless _ => rfl
  | boxed _ further => exact further
  | record _ further => exact further
  | no_parts => rfl
  | part _ _ own further => exact further.trans own
  | part_stops _ own => exact own
  | no_members => rfl
  | field _ _ own further => exact further.trans own
  | field_stops _ own => exact own
  | extend _ _ own further => exact further.trans own
  | extend_stops _ own => exact own
  | recursive _ => rfl
  | expanded _ _ further => exact congrArg List.tail further
  | passed _ => rfl
  | extended _ _ further => exact congrArg List.tail further
  | undeclared _ => rfl
  | declared _ _ further => exact further

/-- A course expands no structure inside of itself, nor inside of one that was on the stack. -/
theorem Course.apart (course : schema.Course topic graph inside outcome left) :
    Expansion.ApartAll graph.visiting inside := by
  induction course with
  | labelled _ _ further => exact further
  | tableless _ => trivial
  | boxed _ further => exact further
  | record _ further => exact further
  | no_parts => trivial
  | part own _ first others =>
      rw [own.balanced] at others
      exact Expansion.apart_all_append.mpr ⟨first, others⟩
  | part_stops _ own => exact own
  | no_members => trivial
  | field own _ first others =>
      rw [own.balanced] at others
      exact Expansion.apart_all_append.mpr ⟨first, others⟩
  | field_stops _ own => exact own
  | extend own _ first others =>
      rw [own.balanced] at others
      exact Expansion.apart_all_append.mpr ⟨first, others⟩
  | extend_stops _ own => exact own
  | recursive _ => trivial
  | expanded new _ further => exact ⟨⟨new, further⟩, trivial⟩
  | passed _ => trivial
  | extended new _ further => exact ⟨⟨new, further⟩, trivial⟩
  | undeclared _ => trivial
  | declared _ _ further => exact further

theorem Shows.unique {type : Ty} {text other : String} {parts others : List (String × Ty)}
    (shows : schema.Shows type text parts) (again : schema.Shows type other others) :
    text = other ∧ parts = others := by
  cases shows <;> cases again <;> simp_all

/-- There is one course only: a description has one outcome and leaves one graph. -/
theorem Course.unique {other : List Expansion} {result : Except Fault Unit} {rest : Graph}
    (course : schema.Course topic graph inside outcome left)
    (again : schema.Course topic graph other result rest) :
    inside = other ∧ outcome = result ∧ left = rest := by
  induction course generalizing other result rest with
  | labelled shows _ induction =>
      cases again with
      | labelled same further =>
          obtain ⟨rfl, rfl⟩ := shows.unique same
          exact induction further
      | tableless failed => cases shows; simp_all
      | boxed => cases shows
      | record => cases shows
  | tableless failed =>
      cases again with
      | labelled shows further => cases shows; simp_all
      | tableless same => simp_all
  | boxed _ induction =>
      cases again with
      | labelled shows further => cases shows
      | boxed further => exact induction further
  | record _ induction =>
      cases again with
      | labelled shows further => cases shows
      | record further => exact induction further
  | no_parts => cases again; simp
  | part _ _ own induction =>
      cases again with
      | part first further =>
          obtain ⟨rfl, -, rfl⟩ := own first
          obtain ⟨rfl, rfl, rfl⟩ := induction further
          simp
      | part_stops first => simpa using (own first).2.1
  | part_stops _ own =>
      cases again with
      | part first further => simpa using (own first).2.1
      | part_stops first => exact own first
  | no_members => cases again; simp
  | field _ _ own induction =>
      cases again with
      | field first further =>
          obtain ⟨rfl, -, rfl⟩ := own first
          obtain ⟨rfl, rfl, rfl⟩ := induction further
          simp
      | field_stops first => simpa using (own first).2.1
  | field_stops _ own =>
      cases again with
      | field first further => simpa using (own first).2.1
      | field_stops first =>
          obtain ⟨rfl, same, rfl⟩ := own first
          cases same
          simp
  | extend _ _ own induction =>
      cases again with
      | extend first further =>
          obtain ⟨rfl, -, rfl⟩ := own first
          obtain ⟨rfl, rfl, rfl⟩ := induction further
          simp
      | extend_stops first => simpa using (own first).2.1
  | extend_stops _ own =>
      cases again with
      | extend first further => simpa using (own first).2.1
      | extend_stops first => exact own first
  | recursive visiting =>
      cases again with
      | recursive => simp
      | expanded new further => exact absurd visiting new
  | expanded new _ induction =>
      cases again with
      | recursive visiting => exact absurd visiting new
      | expanded _ further =>
          obtain ⟨rfl, rfl, rfl⟩ := induction further
          simp
  | passed visiting =>
      cases again with
      | passed => simp
      | extended new further => exact absurd visiting new
  | extended new _ induction =>
      cases again with
      | passed visiting => exact absurd visiting new
      | extended _ further =>
          obtain ⟨rfl, rfl, rfl⟩ := induction further
          simp
  | undeclared failed =>
      cases again with
      | undeclared same => simp_all
      | declared built further => simp_all
  | declared built _ induction =>
      cases again with
      | undeclared failed => simp_all
      | declared same further =>
          rw [built] at same
          cases same
          exact induction further

end Schema

end Marshal
