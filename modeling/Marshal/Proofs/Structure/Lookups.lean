import Marshal.Proofs.Structure.Choosing

/-!
# Looking members up

A set of descriptors is put together call by call: the members in order, and beside them an index that
keeps where each name stands. Names and fields are checked against what is there, so both stay distinct
and the index stays in step. A member is therefore found by its name, by its field and by what it is,
all three leading to where it was declared, and nothing else is found.
-/

namespace Marshal

/-- What is asked of a member of a set, also of one that a program brings along: its name, its field
and the names that it writes. -/
class Descriptor (Entry : Type) where
  name : Entry → String
  field : Entry → FieldId
  outputs : Entry → Except Fault (List String)

instance : Descriptor Member := ⟨Member.name, Member.id, fun member => .ok member.outputs⟩

instance : Descriptor MemberCall where
  name call := call.head.name
  field call := call.head.id
  outputs call := call.resolve.map Member.outputs

namespace Descriptor

variable {Entry : Type} [Descriptor Entry]

/-- Two members count as the same when both name and field agree. -/
def same (left right : Entry) : Bool := name left = name right && field left = field right

/-- That lookups by name, by field and by member find the entries of a list, each at its place, and
nothing else. -/
structure LooksUp (entries : List Entry) (get? : String → Option Entry)
    (find? : FieldId → Option Entry) (position? : Entry → Option Nat) : Prop where
  own : ∀ index entry, entries[index]? = some entry →
    get? (name entry) = some entry ∧ find? (field entry) = some entry ∧
      ∀ wanted, name wanted = name entry → field wanted = field entry →
        position? wanted = some index
  unnamed : ∀ wanted, (∀ entry ∈ entries, name entry ≠ wanted) → get? wanted = none
  undeclared : ∀ wanted, (∀ entry ∈ entries, field entry ≠ wanted) → find? wanted = none
  unlike : ∀ wanted,
    (∀ entry ∈ entries, ¬(name entry = name wanted ∧ field entry = field wanted)) →
      position? wanted = none

/-- Searching a list finds its entries if names are distinct and fields are. -/
theorem looks_up_of_distinct {entries : List Entry} (names : (entries.map name).Nodup)
    (fields : (entries.map field).Nodup) :
    LooksUp entries (fun wanted => entries.find? fun entry => name entry = wanted)
      (fun wanted => entries.find? fun entry => field entry = wanted)
      (fun wanted => entries.findIdx? fun entry => same entry wanted) where
  own index entry known := by
    refine ⟨?named, ?declared, ?alike⟩
    case named =>
      rw [List.find?_eq_bind_findIdx?_getElem?, find_idx_alone names known (by simp) (by simp)]
      exact known
    case declared =>
      rw [List.find?_eq_bind_findIdx?_getElem?, find_idx_alone fields known (by simp) (by simp)]
      exact known
    case alike =>
      intro wanted named declared
      refine find_idx_alone names known (by simp [same, named, declared]) ?_
      intro other alike
      simp only [same, Bool.and_eq_true, decide_eq_true_eq] at alike
      exact alike.1.trans named
  unnamed wanted none := by simpa using none
  undeclared wanted none := by simpa using none
  unlike wanted none := by simpa [same] using none

end Descriptor

/-- Members in declaration order, and where the member of each name stands. -/
structure DescriptorSet (Entry : Type) where
  members : List Entry
  places : List (String × Nat)

namespace DescriptorSet

open Descriptor

variable {Entry : Type} [Descriptor Entry]

def place? (set : DescriptorSet Entry) (wanted : String) : Option Nat :=
  (set.places.find? fun place => place.1 = wanted).map Prod.snd

/-- The member at the place that the index gives for a name. -/
def get? (set : DescriptorSet Entry) (wanted : String) : Option Entry :=
  (set.place? wanted).bind fun place => set.members[place]?

def positionOf? (set : DescriptorSet Entry) (wanted : FieldId) : Option Nat :=
  set.members.findIdx? fun entry => field entry = wanted

def find? (set : DescriptorSet Entry) (wanted : FieldId) : Option Entry :=
  (set.positionOf? wanted).bind fun place => set.members[place]?

def position? (set : DescriptorSet Entry) (wanted : Entry) : Option Nat :=
  set.members.findIdx? fun entry => same entry wanted

def append (set : DescriptorSet Entry) (entry : Entry) : DescriptorSet Entry :=
  ⟨set.members ++ [entry], (name entry, set.members.length) :: set.places⟩

/-- Adds a member unless its name or its field is declared already. -/
def add (owner : String) (set : DescriptorSet Entry) (entry : Entry) :
    Except Fault (DescriptorSet Entry) :=
  if (set.place? (name entry)).isSome then .error (.of (.memberNameRepeated (name entry) owner))
  else
    match set.members.find? fun declared => field declared = field entry with
    | some other => .error (.of (.fieldRepeated (name other) (name entry) owner))
    | none => .ok (set.append entry)

/-- That the index gives for every name where its member stands, and no name or field is there twice. -/
structure Consistent (set : DescriptorSet Entry) : Prop where
  inStep : ∀ wanted, set.place? wanted = set.members.findIdx? fun entry => name entry = wanted
  names : (set.members.map name).Nodup
  fields : (set.members.map field).Nodup

variable {owner : String} {set : DescriptorSet Entry} {entry : Entry}

theorem Consistent.looks_up (consistent : set.Consistent) :
    LooksUp set.members set.get? set.find? set.position? := by
  have searched := looks_up_of_distinct consistent.names consistent.fields
  have named : set.get? = fun wanted => set.members.find? fun entry => name entry = wanted := by
    funext wanted
    rw [get?, consistent.inStep, List.find?_eq_bind_findIdx?_getElem?]
  have declared :
      set.find? = fun wanted => set.members.find? fun entry => field entry = wanted := by
    funext wanted
    rw [find?, positionOf?, List.find?_eq_bind_findIdx?_getElem?]
  rw [named, declared]
  exact searched

theorem Consistent.place_inside (consistent : set.Consistent) {wanted : String} {place : Nat}
    (placed : set.place? wanted = some place) : place < set.members.length := by
  rw [consistent.inStep, List.findIdx?_eq_some_iff_getElem] at placed
  exact placed.1

theorem Consistent.append (consistent : set.Consistent) (newName : name entry ∉ set.members.map name)
    (newField : field entry ∉ set.members.map field) : (set.append entry).Consistent where
  inStep wanted := by
    rw [place?, DescriptorSet.append, List.find?_cons, List.findIdx?_append, ← consistent.inStep,
      List.findIdx?_singleton]
    by_cases own : name entry = wanted
    · subst own
      have unplaced : set.place? (name entry) = none := by
        rw [consistent.inStep, List.findIdx?_eq_none_iff]
        intro other inside
        exact decide_eq_false fun same => newName (List.mem_map.mpr ⟨other, inside, same⟩)
      simp [unplaced]
    · simp [own, place?]
  names := by
    rw [DescriptorSet.append, List.map_append, List.map_singleton, ← List.concat_eq_append]
    exact consistent.names.concat newName
  fields := by
    rw [DescriptorSet.append, List.map_append, List.map_singleton, ← List.concat_eq_append]
    exact consistent.fields.concat newField

/-- What is added has a new name and a new field. -/
theorem add_ok (consistent : set.Consistent) {next : DescriptorSet Entry}
    (added : set.add owner entry = .ok next) :
    next = set.append entry ∧ next.Consistent := by
  rw [add] at added
  split_ifs at added with placed
  split at added
  · cases added
  · rename_i free
    cases added
    refine ⟨rfl, consistent.append ?_ ?_⟩
    · rw [consistent.inStep, List.findIdx?_isSome] at placed
      simpa using placed
    · simpa using free

end DescriptorSet

/-- A set under way, and the first refusal. -/
structure SetBuilder (Entry : Type) where
  set : DescriptorSet Entry
  refusal? : Option Fault

namespace SetBuilder

open Descriptor

section Building

variable {Entry : Type} [Descriptor Entry]

def empty : SetBuilder Entry := ⟨⟨[], []⟩, none⟩

/-- Declares a member. After a refusal nothing is added any more. -/
def member (owner : String) (builder : SetBuilder Entry) (entry : Entry) : SetBuilder Entry :=
  match builder.refusal?, builder.set.add owner entry with
  | some _, _ => builder
  | none, .ok next => ⟨next, none⟩
  | none, .error fault => ⟨builder.set, some fault⟩

/-- Records all names that members write, unless one of them is written already. -/
def claimAll (owner : String) (written : List (String × String)) :
    List Entry → Except Fault (List (String × String))
  | [] => .ok written
  | entry :: rest =>
      (outputs entry).bind fun names =>
        (Declaration.claimOutputs owner (name entry) written names).bind fun claimed =>
          claimAll owner claimed rest

def build (owner : String) (builder : SetBuilder Entry) : Except Fault (DescriptorSet Entry) :=
  match builder.refusal? with
  | some fault => .error fault
  | none => (claimAll owner [] builder.set.members).map fun _ => builder.set

/-- The set of the members that are declared one after the other. -/
def declare (owner : String) (calls : List Entry) : Except Fault (DescriptorSet Entry) :=
  (calls.foldl (member owner) empty).build owner

variable {owner : String} {builder : SetBuilder Entry}

theorem member_consistent (consistent : builder.set.Consistent) (entry : Entry) :
    (builder.member owner entry).set.Consistent := by
  rw [member]
  split
  · exact consistent
  · rename_i next accepted added
    exact (DescriptorSet.add_ok consistent added).2
  · exact consistent

theorem member_accepted (consistent : builder.set.Consistent) {entry : Entry}
    (accepted : (builder.member owner entry).refusal? = none) :
    builder.refusal? = none ∧
      (builder.member owner entry).set.members = builder.set.members ++ [entry] := by
  rw [member] at accepted ⊢
  split at accepted
  · rename_i fault refused
    rw [refused] at accepted
    cases accepted
  · rename_i next unrefused added
    obtain ⟨rfl, -⟩ := DescriptorSet.add_ok consistent added
    exact ⟨unrefused, rfl⟩
  · cases accepted

/-- However many members have been told of, the set is consistent, and holds all of them unless one was
refused. -/
theorem members_follow (owner : String) (consistent : builder.set.Consistent) (calls : List Entry) :
    (calls.foldl (member owner) builder).set.Consistent ∧
      ((calls.foldl (member owner) builder).refusal? = none →
        builder.refusal? = none ∧
          (calls.foldl (member owner) builder).set.members = builder.set.members ++ calls) := by
  induction calls generalizing builder with
  | nil => exact ⟨consistent, fun accepted => ⟨accepted, (List.append_nil _).symm⟩⟩
  | cons entry rest induction =>
      obtain ⟨kept, members⟩ := induction (member_consistent consistent entry)
      refine ⟨kept, ?_⟩
      intro accepted
      -- A refusal is never taken back: where there is none at the end, none followed this entry.
      obtain ⟨next, further⟩ := members accepted
      obtain ⟨unrefused, own⟩ := member_accepted consistent next
      refine ⟨unrefused, ?_⟩
      rw [List.foldl_cons, further, own, List.append_assoc, List.singleton_append]

theorem empty_consistent : (empty : SetBuilder Entry).set.Consistent :=
  ⟨fun _ => rfl, List.nodup_nil, List.nodup_nil⟩

theorem declare_ok {calls : List Entry} {set : DescriptorSet Entry}
    (built : declare owner calls = .ok set) : set.members = calls ∧ set.Consistent := by
  obtain ⟨consistent, members⟩ := members_follow owner empty_consistent calls
  rw [declare, build] at built
  split at built
  · cases built
  · rename_i unrefused
    cases claimed : claimAll owner [] (calls.foldl (member owner) empty).set.members with
    | error fault =>
        rw [claimed] at built
        cases built
    | ok written =>
        rw [claimed] at built
        cases built
        exact ⟨(members unrefused).2, consistent⟩

end Building

section Declared

variable {owner : String}

/-- What a declaration looks for in the heads of the members before, a set looks for in itself. -/
theorem first_repeat_add {set : DescriptorSet MemberCall} (consistent : set.Consistent)
    (call : MemberCall) (rest : List MemberCall) :
    Declaration.firstRepeat owner (set.members.map MemberCall.head) (call :: rest) =
      match set.add owner call with
      | .error fault => some fault
      | .ok next => Declaration.firstRepeat owner (next.members.map MemberCall.head) rest := by
  have named : ((set.members.map MemberCall.head).any fun head => head.name = call.head.name) =
      (set.place? (name call)).isSome := by
    rw [consistent.inStep, List.findIdx?_isSome, List.any_map]
    rfl
  have known : ((set.members.map MemberCall.head).find? fun head => head.id = call.head.id) =
      (set.members.find? fun declared => field declared = field call).map MemberCall.head :=
    List.find?_map
  rw [Declaration.firstRepeat, named, known, DescriptorSet.add]
  split_ifs
  · rfl
  · cases set.members.find? fun declared => field declared = field call with
    | some other => rfl
    | none =>
        have appended : (set.append call).members.map MemberCall.head =
          set.members.map MemberCall.head ++ [call.head] := List.map_append
        simp only [Option.map_none, appended]

theorem refused_stays {Entry : Type} [Descriptor Entry] (set : DescriptorSet Entry) (fault : Fault)
    (calls : List Entry) : calls.foldl (member owner) ⟨set, some fault⟩ = ⟨set, some fault⟩ := by
  induction calls with
  | nil => rfl
  | cons entry rest induction => exact induction

/-- The refusal that is kept is that of the first call that repeats a name or a field. -/
theorem members_refused {set : DescriptorSet MemberCall} (consistent : set.Consistent)
    (calls : List MemberCall) :
    (calls.foldl (member owner) ⟨set, none⟩).refusal? =
      Declaration.firstRepeat owner (set.members.map MemberCall.head) calls := by
  induction calls generalizing set with
  | nil => rfl
  | cons call rest induction =>
      rw [List.foldl_cons, member, first_repeat_add consistent]
      cases added : set.add owner call with
      | error fault => exact congrArg refusal? (refused_stays set fault rest)
      | ok next => exact induction (DescriptorSet.add_ok consistent added).2

theorem resolve_all_claimed (written : List (String × String)) (calls : List MemberCall) :
    Declaration.resolveAll owner written calls =
      (claimAll owner written calls).bind fun _ => calls.mapM MemberCall.resolve := by
  induction calls generalizing written with
  | nil => rfl
  | cons call rest induction =>
      rw [Declaration.resolveAll, claimAll, List.mapM_cons]
      cases resolved : call.resolve with
      | error fault => simp only [outputs, resolved, Except.map, Except.bind]
      | ok made =>
          have named : made.name = name call :=
            congrArg MemberHead.name (MemberCall.resolve_head resolved)
          simp only [outputs, resolved, Except.map, Except.bind, named]
          cases Declaration.claimOutputs owner (name call) written made.outputs with
          | error fault => rfl
          | ok claimed =>
              simp only [induction]
              cases claimAll owner claimed rest with
              | error fault => rfl
              | ok all => cases rest.mapM MemberCall.resolve <;> rfl

/-- Fields and extensions are accepted, or refused, one after the other as they are all at once. -/
theorem build_declared (owner : String) (calls : List MemberCall) :
    Declaration.build owner calls =
      (declare owner calls).bind fun set => set.members.mapM MemberCall.resolve := by
  have refused : (calls.foldl (member owner) empty).refusal? =
    Declaration.firstRepeat owner [] calls := members_refused empty_consistent calls
  obtain ⟨-, members⟩ := members_follow owner empty_consistent calls
  rw [Declaration.build, declare, build, ← refused]
  cases accepted : (calls.foldl (member owner) empty).refusal? with
  | some fault => rfl
  | none =>
      have all : (calls.foldl (member owner) empty).set.members = calls := (members accepted).2
      simp only [resolve_all_claimed, all]
      cases claimAll owner [] calls <;> simp [Except.map, Except.bind, all]

end Declared

end SetBuilder

theorem Member.looks_up {owner : String} {calls : List MemberCall} {members : List Member}
    (built : Declaration.build owner calls = .ok members) :
    Descriptor.LooksUp members (Member.get? members) (Member.find? members)
      (Member.position? members) := by
  obtain ⟨names, fields⟩ := Declaration.built_distinct built
  rw [List.map_map] at names fields
  exact Descriptor.looks_up_of_distinct names fields

/-- In every set that is accepted, whatever its members are, the lookups by name, by field and by member
agree with the order of declaration. A set of fields and extensions is what their declaration gives,
whose lookups agree as well. -/
theorem DescriptorSet.lookups_agree :
    (∀ (Entry : Type) [Descriptor Entry] (owner : String) (calls : List Entry)
        (set : DescriptorSet Entry), SetBuilder.declare owner calls = .ok set →
      set.members = calls ∧
        (∀ wanted place, set.place? wanted = some place → place < set.members.length) ∧
        Descriptor.LooksUp set.members set.get? set.find? set.position?) ∧
      (∀ owner calls, Declaration.build owner calls =
        (SetBuilder.declare owner calls).bind fun set => set.members.mapM MemberCall.resolve) ∧
      ∀ owner calls members, Declaration.build owner calls = .ok members →
        calls.map MemberCall.resolve = members.map .ok ∧
          Descriptor.LooksUp members (Member.get? members) (Member.find? members)
            (Member.position? members) := by
  refine ⟨?sets, SetBuilder.build_declared, ?declarations⟩
  case sets =>
    intro Entry _ owner calls set built
    obtain ⟨members, consistent⟩ := SetBuilder.declare_ok built
    exact ⟨members, fun _ _ => consistent.place_inside, consistent.looks_up⟩
  case declarations =>
    intro owner calls members built
    exact ⟨Declaration.build_members built, Member.looks_up built⟩

/-- Two fields that take no room, and an extension that shares their offset. -/
def Journey.crossing : List MemberCall :=
  [.field (head "left" 0 (.tuple [])) (.tuple []), .field (head "right" 0 (.tuple [])) (.tuple []),
    .extend (head "place" 0 (.record "Place")) "Place" (Declaration.build "Place" place)]

theorem DescriptorSet.lookups_agree_crossing :
    ∃ set, SetBuilder.declare "Crossing" Journey.crossing = .ok set ∧
      set.members = Journey.crossing ∧
      set.get? "right" = some (.field (Journey.head "right" 0 (.tuple [])) (.tuple [])) ∧
      set.find? ⟨0, "right", .record "Place"⟩ = none ∧
      ∃ members, Declaration.build "Crossing" Journey.crossing = .ok members ∧
        Descriptor.LooksUp members (Member.get? members) (Member.find? members)
          (Member.position? members) := by
  obtain ⟨sets, -, declarations⟩ := lookups_agree
  refine ⟨⟨Journey.crossing, [("place", 2), ("right", 1), ("left", 0)]⟩, rfl, ?_⟩
  obtain ⟨members, -, looksUp⟩ := sets MemberCall "Crossing" Journey.crossing _ rfl
  refine ⟨members, (looksUp.own 1 _ rfl).1, looksUp.undeclared _ (by decide), _, rfl, ?_⟩
  exact (declarations "Crossing" Journey.crossing _ rfl).2

end Marshal
