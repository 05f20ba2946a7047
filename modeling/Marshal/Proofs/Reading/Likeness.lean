import Marshal.Proofs.Reading.Sites
import Mathlib.Data.List.Forall2

/-!
# Documents that readers take for the same

Documents can differ in what no reader looks at, such as the positions of arrays or the integer
family of a natural. A likeness relates nodes that cannot be told apart by any way of taking them.
Readings of alike documents succeed or fail alike, make the same of their targets and leave alike
documents.
-/

namespace Marshal

/-- That two results are values in a relation, or faults in a relation. -/
inductive Agree {Value : Type} (faults : Fault → Fault → Prop) (values : Value → Value → Prop) :
    Except Fault Value → Except Fault Value → Prop
  | ok {left right : Value} (same : values left right) : Agree faults values (.ok left) (.ok right)
  | error {left right : Fault} (same : faults left right) :
      Agree faults values (.error left) (.error right)

namespace Agree

variable {Value Other : Type} {faults : Fault → Fault → Prop} {values : Value → Value → Prop}
variable {others : Other → Other → Prop} {left right : Except Fault Value}

theorem either (agree : Agree faults values left right) :
    (∃ first second, left = .error first ∧ right = .error second ∧ faults first second) ∨
      ∃ first second, left = .ok first ∧ right = .ok second ∧ values first second := by
  cases agree with
  | ok same => exact .inr ⟨_, _, rfl, rfl, same⟩
  | error same => exact .inl ⟨_, _, rfl, rfl, same⟩

theorem ok_iff {first second : Except Fault Unit} (agree : Agree faults Eq first second) :
    first = .ok () ↔ second = .ok () := by
  cases agree with
  | ok same => rw [same]
  | error same => exact ⟨nofun, nofun⟩

theorem bind (agree : Agree faults values left right) {leftTake rightTake : Value → Except Fault Other}
    (taken : ∀ {first second}, values first second →
      Agree faults others (leftTake first) (rightTake second)) :
    Agree faults others (left.bind leftTake) (right.bind rightTake) := by
  cases agree with
  | ok same => exact taken same
  | error same => exact .error same

theorem map (agree : Agree faults values left right) {leftMake rightMake : Value → Other}
    (made : ∀ {first second}, values first second → others (leftMake first) (rightMake second)) :
    Agree faults others (left.map leftMake) (right.map rightMake) := by
  cases agree with
  | ok same => exact .ok (made same)
  | error same => exact .error same

theorem map_error (agree : Agree faults values left right) {change : Fault → Fault}
    (kept : ∀ {first second}, faults first second → faults (change first) (change second)) :
    Agree faults values (left.mapError change) (right.mapError change) := by
  cases agree with
  | ok same => exact .ok same
  | error same => exact .error (kept same)

/-- The same result agrees with itself. -/
theorem refl (reflexive : ∀ fault, faults fault fault) (result : Except Fault Value) :
    Agree faults Eq result result := by
  cases result with
  | ok value => exact .ok rfl
  | error fault => exact .error (reflexive fault)

/-- Two results that agree with a third one agree with each other. -/
theorem join {middle : Except Fault Value} {both : Value → Value → Prop}
    (agree : Agree faults values left middle) (other : Agree faults values right middle)
    (fault : ∀ {first second third}, faults first third → faults second third → faults first second)
    (value : ∀ {first second third}, values first third → values second third → both first second) :
    Agree faults both left right := by
  cases agree with
  | ok same =>
      cases other with
      | ok also => exact .ok (value same also)
  | error same =>
      cases other with
      | error also => exact .error (fault same also)

end Agree

/-- A relation between nodes that readers cannot tell apart, up to a relation between the faults that
they answer with. -/
structure Likeness where
  nodes : Node → Node → Prop
  faults : Fault → Fault → Prop
  fault_refl : ∀ fault, faults fault fault
  absorbable : ∀ {left right}, faults left right → left.isAbsorbable = right.isAbsorbable
  in_field : ∀ {left right}, faults left right → ∀ name,
    faults (left.inField name) (right.inField name)
  at_index : ∀ {left right}, faults left right → ∀ position,
    faults (left.atIndex position) (right.atIndex position)
  null : ∀ {left right}, nodes left right → left.isNull = right.isNull
  depth : ∀ {left right}, nodes left right → left.depth = right.depth
  numbers : ∀ {left right}, nodes left right → ∀ scalar : Primitive,
    Agree faults Eq (left.scalarValue.bind scalar.narrow) (right.scalarValue.bind scalar.narrow)
  texts : ∀ {left right}, nodes left right →
    Agree faults Eq (left.scalarValue.bind fun source => source.getOrFault .string)
      (right.scalarValue.bind fun source => source.getOrFault .string)
  structs : ∀ {left right}, nodes left right →
    Agree faults (List.Forall₂ fun first second => first.1 = second.1 ∧ nodes first.2 second.2)
      left.structFields right.structFields
  arrays : ∀ {left right}, nodes left right →
    Agree faults (fun first second => List.Forall₂ nodes first.items second.items ∧
      first.cursor = second.cursor) left.arraySlots right.arraySlots
  struct : ∀ {left right},
    List.Forall₂ (fun first second => first.1 = second.1 ∧ nodes first.2 second.2) left right →
      nodes (.struct left) (.struct right)
  array : ∀ {left right}, List.Forall₂ nodes left right → ∀ leftCursor rightCursor,
    nodes (.array left leftCursor) (.array right rightCursor)

namespace Likeness

variable (like : Likeness)

def fields (left right : Fields) : Prop :=
  List.Forall₂ (fun first second => first.1 = second.1 ∧ like.nodes first.2 second.2) left right

/-- Arrays that stand at the same position. -/
structure SlotsAlike (left right : Slots) : Prop where
  items : List.Forall₂ like.nodes left.items right.items
  cursor : left.cursor = right.cursor

/-- Readings that succeed or fail alike and make the same of their targets. -/
structure ReadingsAlike {Target State : Type} (states : State → State → Prop)
    (left right : Reading Target State) : Prop where
  outcome : Agree like.faults Eq left.outcome right.outcome
  target : left.target = right.target
  source : states left.source right.source

/-- A place whose container is in a relation to others, and all that is done there keeps to it. -/
structure Respects {State : Type} (site : Site State) (states : State → State → Prop) : Prop where
  exhausted : ∀ {left right}, states left right →
    site.inlet.isExhausted left = site.inlet.isExhausted right
  held : ∀ {left right}, states left right →
    site.inlet.holdsValue left = site.inlet.holdsValue right
  position : ∀ {left right}, states left right →
    site.inlet.position left = site.inlet.position right
  skip : ∀ {left right}, states left right →
    Agree like.faults Eq (site.inlet.skip left).1 (site.inlet.skip right).1 ∧
      states (site.inlet.skip left).2 (site.inlet.skip right).2
  found : ∀ {left right}, states left right →
    Agree like.faults like.nodes (site.found left) (site.found right)
  next : ∀ {left right}, states left right → states (site.next left) (site.next right)
  struct : ∀ {left right}, states left right → ∀ {first second}, like.fields first second →
    states (site.inlet.storeStruct first (site.next left))
      (site.inlet.storeStruct second (site.next right))
  array : ∀ {left right}, states left right → ∀ {first second}, like.SlotsAlike first second →
    states (site.inlet.storeArray first (site.next left))
      (site.inlet.storeArray second (site.next right))

variable {like}

section Documents

variable {left right : Fields}

theorem names_alike (alike : like.fields left right) : left.names = right.names := by
  induction alike with
  | nil => rfl
  | cons same _ induction => exact congrArg₂ List.cons same.1 induction

theorem get_alike (alike : like.fields left right) (name : String) :
    (left.get? name = none ∧ right.get? name = none) ∨
      ∃ first second, left.get? name = some first ∧ right.get? name = some second ∧
        like.nodes first second := by
  induction alike with
  | nil => exact .inl ⟨rfl, rfl⟩
  | @cons first second _ _ same _ induction =>
      rw [Fields.get?, Fields.get?, same.1]
      split_ifs
      · exact .inr ⟨first.2, second.2, rfl, rfl, same.2⟩
      · exact induction

theorem find_alike (alike : like.fields left right) (name : String) :
    Agree like.faults like.nodes (left.find name) (right.find name) := by
  unfold Fields.find
  rcases get_alike alike name with ⟨first, second⟩ | ⟨_, _, first, second, same⟩
  · rw [first, second]
    exact .error (like.fault_refl _)
  · rw [first, second]
    exact .ok same

theorem holds_alike (alike : like.fields left right) (name : String) :
    left.holds name = right.holds name := by
  unfold Fields.holds
  rcases get_alike alike name with ⟨first, second⟩ | ⟨_, _, first, second, same⟩
  · rw [first, second]
  · rw [first, second]
    exact congrArg not (like.null same)

theorem put_alike (alike : like.fields left right) (name : String) {first second : Node}
    (nodes : like.nodes first second) : like.fields (left.put name first) (right.put name second) := by
  induction alike with
  | nil => exact .cons ⟨rfl, nodes⟩ .nil
  | cons same rest induction =>
      rw [Fields.put, Fields.put, same.1]
      split_ifs
      · exact .cons ⟨rfl, nodes⟩ rest
      · exact .cons ⟨rfl, same.2⟩ induction

theorem depth_alike (alike : like.fields left right) :
    (Node.struct left).depth = (Node.struct right).depth := like.depth (like.struct alike)

end Documents

section Arrays

theorem element_alike {left right : List Node} (items : List.Forall₂ like.nodes left right)
    (position : Nat) :
    (left[position]? = none ∧ right[position]? = none) ∨
      ∃ first second, left[position]? = some first ∧ right[position]? = some second ∧
        like.nodes first second := by
  induction items generalizing position with
  | nil => exact .inl ⟨rfl, rfl⟩
  | cons same rest induction =>
      cases position with
      | zero => exact .inr ⟨_, _, rfl, rfl, same⟩
      | succ position => exact induction position

theorem set_element_alike {left right : List Node} (items : List.Forall₂ like.nodes left right)
    {first second : Node} (nodes : like.nodes first second) (position : Nat) :
    List.Forall₂ like.nodes (left.set position first) (right.set position second) := by
  induction items generalizing position with
  | nil => exact .nil
  | cons same rest induction =>
      cases position with
      | zero => exact .cons nodes rest
      | succ position => exact .cons same (induction position)

variable {left right : Slots}

theorem complete_alike (alike : like.SlotsAlike left right) : left.isComplete = right.isComplete := by
  rw [Slots.isComplete, Slots.isComplete, alike.cursor, alike.items.length_eq]

theorem current_alike (alike : like.SlotsAlike left right) :
    (left.current? = none ∧ right.current? = none) ∨
      ∃ first second, left.current? = some first ∧ right.current? = some second ∧
        like.nodes first second := by
  rw [Slots.current?, Slots.current?, alike.cursor]
  exact element_alike alike.items right.cursor

theorem current_holds_alike (alike : like.SlotsAlike left right) :
    left.currentHolds = right.currentHolds := by
  unfold Slots.currentHolds
  rcases current_alike alike with ⟨first, second⟩ | ⟨_, _, first, second, same⟩
  · rw [first, second]
  · rw [first, second]
    exact congrArg not (like.null same)

theorem next_alike (alike : like.SlotsAlike left right) :
    Agree like.faults like.nodes left.next.1 right.next.1 ∧
      like.SlotsAlike left.next.2 right.next.2 := by
  unfold Slots.next
  rcases current_alike alike with ⟨first, second⟩ | ⟨_, _, first, second, same⟩
  · rw [first, second, alike.cursor, alike.items.length_eq]
    exact ⟨.error (like.fault_refl _), alike⟩
  · rw [first, second]
    exact ⟨.ok same, alike.items, congrArg (· + 1) alike.cursor⟩

/-- Alike containers take the places of the elements that they have been opened from. -/
theorem set_alike (alike : like.SlotsAlike left right) {first second : Node}
    (nodes : like.nodes first second) :
    like.SlotsAlike (left.setAt (left.cursor - 1) first) (right.setAt (right.cursor - 1) second) := by
  refine ⟨?_, alike.cursor⟩
  rw [alike.cursor]
  exact set_element_alike alike.items nodes _

end Arrays

theorem respects_field (like : Likeness) (name : String) :
    like.Respects (Fields.site name) like.fields where
  exhausted _ := rfl
  held alike := holds_alike alike name
  position _ := rfl
  skip alike := ⟨.ok rfl, alike⟩
  found alike := find_alike alike name
  next alike := alike
  struct alike _ _ children := put_alike alike name (like.struct children)
  array alike _ _ children := put_alike alike name (like.array children.items _ _)

theorem respects_next (like : Likeness) : like.Respects Slots.site like.SlotsAlike where
  exhausted alike := complete_alike alike
  held alike := current_holds_alike alike
  position alike := alike.cursor
  skip alike := by
    obtain ⟨taken, next⟩ := next_alike alike
    exact ⟨taken.map fun _ => rfl, next⟩
  found alike := (next_alike alike).1
  next alike := (next_alike alike).2
  struct alike _ _ children := set_alike (next_alike alike).2 (like.struct children)
  array alike _ _ children := set_alike (next_alike alike).2 (like.array children.items _ _)

/-- Whatever is made of alike texts is the same. -/
theorem text_taken {first second : Node} (nodes : like.nodes first second) (take : Val → Except Fault Val) :
    let decode := fun source : AnyValue =>
      match source.getOrFault .string with
      | .error fault => .error fault
      | .ok text => take text
    Agree like.faults Eq (first.scalarValue.bind decode) (second.scalarValue.bind decode) := by
  intro decode
  have staged (node : Node) : node.scalarValue.bind decode =
      (node.scalarValue.bind fun source => source.getOrFault .string).bind take := by
    cases node.scalarValue with
    | error fault => rfl
    | ok source =>
        simp only [Except.bind, decode]
        cases source.getOrFault .string with
        | error fault => rfl
        | ok text => rfl
  rw [staged, staged]
  exact (like.texts nodes).bind fun same => same ▸ .refl like.fault_refl _

section Places

variable {State Target : Type} {site : Site State} {states : State → State → Prop}
variable {left right : State}

/-- At alike places alike structs are opened, or none at either. -/
theorem structs_opened (respects : like.Respects site states) (alike : states left right) :
    (∃ first second, site.inlet.openStruct left = (.error first, site.next left) ∧
      site.inlet.openStruct right = (.error second, site.next right) ∧ like.faults first second) ∨
      ∃ first second, site.inlet.openStruct left = (.ok first, site.next left) ∧
        site.inlet.openStruct right = (.ok second, site.next right) ∧ like.fields first second := by
  rw [site.open_struct_eq, site.open_struct_eq]
  rcases ((respects.found alike).bind like.structs).either with
    ⟨first, second, opened, other, same⟩ | ⟨first, second, opened, other, same⟩
  · exact .inl ⟨first, second, by rw [opened], by rw [other], same⟩
  · exact .inr ⟨first, second, by rw [opened], by rw [other], same⟩

theorem arrays_opened (respects : like.Respects site states) (alike : states left right) :
    (∃ first second, site.inlet.openArray left = (.error first, site.next left) ∧
      site.inlet.openArray right = (.error second, site.next right) ∧ like.faults first second) ∨
      ∃ first second, site.inlet.openArray left = (.ok first, site.next left) ∧
        site.inlet.openArray right = (.ok second, site.next right) ∧
          like.SlotsAlike first second := by
  rw [site.open_array_eq, site.open_array_eq]
  rcases ((respects.found alike).bind like.arrays).either with
    ⟨first, second, opened, other, same⟩ | ⟨first, second, opened, other, same⟩
  · exact .inl ⟨first, second, by rw [opened], by rw [other], same⟩
  · exact .inr ⟨first, second, by rw [opened], by rw [other], same.1, same.2⟩

/-- A scalar is replaced by what is decoded of the node that is found. -/
theorem scalar_taken (site : Site State) (decode : AnyValue → Except Fault Val) (target : Val)
    (state : State) :
    readScalar site.inlet decode target state =
      match (site.found state).bind fun node => node.scalarValue.bind decode with
      | .error fault => ⟨.error fault, target, site.next state, []⟩
      | .ok value => ⟨.ok (), value, site.next state, []⟩ := by
  rw [readScalar, site.value_eq]
  cases site.found state with
  | error fault => rfl
  | ok node =>
      simp only [Except.bind]
      cases node.scalarValue with
      | error fault => rfl
      | ok source => rfl

theorem scalar_alike (respects : like.Respects site states) {decode : AnyValue → Except Fault Val}
    (decoded : ∀ {first second}, like.nodes first second →
      Agree like.faults Eq (first.scalarValue.bind decode) (second.scalarValue.bind decode))
    (target : Val) (alike : states left right) :
    like.ReadingsAlike states (readScalar site.inlet decode target left)
      (readScalar site.inlet decode target right) := by
  rw [scalar_taken, scalar_taken]
  rcases ((respects.found alike).bind decoded).either with
    ⟨first, second, taken, other, same⟩ | ⟨first, second, taken, other, same⟩
  · rw [taken, other]
    exact ⟨.error same, rfl, respects.next alike⟩
  · rw [taken, other]
    exact ⟨.ok rfl, same, respects.next alike⟩

theorem settle_alike (respects : like.Respects site states) (inner : Ty) (target : Val)
    (alike : states left right) {leftContent rightContent : Reading Val State}
    (contents : like.ReadingsAlike states leftContent rightContent) :
    like.ReadingsAlike states (settleOptional site.inlet inner target left leftContent)
      (settleOptional site.inlet inner target right rightContent) := by
  obtain ⟨outcome, same, source⟩ := contents
  unfold settleOptional
  rw [same, respects.position source, respects.position alike, respects.exhausted source]
  rcases outcome.either with ⟨first, second, failed, other, faults⟩ | ⟨_, _, done, other, -⟩
  · rw [failed, other]
    dsimp only
    rw [like.absorbable faults]
    split_ifs
    · obtain ⟨skipped, next⟩ := respects.skip source
      revert skipped next
      generalize site.inlet.skip leftContent.source = leftSkipped
      generalize site.inlet.skip rightContent.source = rightSkipped
      intro skipped next
      obtain ⟨leftOutcome, leftNext⟩ := leftSkipped
      obtain ⟨rightOutcome, rightNext⟩ := rightSkipped
      cases skipped with
      | ok => exact ⟨.ok rfl, rfl, next⟩
      | error same => exact ⟨.error same, rfl, next⟩
    · exact ⟨.ok rfl, rfl, source⟩
    · exact ⟨.error faults, rfl, source⟩
  · rw [done, other]
    exact ⟨.ok rfl, rfl, source⟩

end Places

section Containers

variable {Item Contents : Type}

theorem ReadingsAlike.after {Target State : Type} {states : State → State → Prop}
    {left right : Reading Target State} (alike : like.ReadingsAlike states left right)
    (leftLog rightLog : Log) :
    like.ReadingsAlike states (left.after leftLog) (right.after rightLog) :=
  ⟨alike.outcome, alike.target, alike.source⟩

theorem read_elements_alike {read : Slots → Reading Item Slots}
    (alike : ∀ {left right}, like.SlotsAlike left right →
      like.ReadingsAlike like.SlotsAlike (read left) (read right))
    (add : Contents → Item → Contents) (bound : Nat) (contents : Contents) {left right : Slots}
    (slots : like.SlotsAlike left right) :
    like.ReadingsAlike like.SlotsAlike (readElements read add bound contents left)
      (readElements read add bound contents right) := by
  induction bound generalizing contents left right with
  | zero => exact ⟨.ok rfl, rfl, slots⟩
  | succ bound induction =>
      rw [readElements, readElements, complete_alike slots]
      split_ifs
      · exact ⟨.ok rfl, rfl, slots⟩
      · obtain ⟨outcome, same, source⟩ := alike slots
        dsimp only
        rcases outcome.either with ⟨first, second, failed, other, faults⟩ | ⟨_, _, done, other, -⟩
        · rw [failed, other, slots.cursor]
          exact ⟨.error (like.at_index faults _), rfl, source⟩
        · rw [done, other, same]
          exact (induction _ source).after _ _

theorem read_entries_alike (naming : KeyNaming) (keyType : String)
    {read : String → Fields → Reading Val Fields}
    (alike : ∀ name {left right}, like.fields left right →
      like.ReadingsAlike like.fields (read name left) (read name right))
    (names : List String) (entries : List (Val × Val)) {left right : Fields}
    (fields : like.fields left right) :
    like.ReadingsAlike like.fields (readEntries naming keyType read names entries left)
      (readEntries naming keyType read names entries right) := by
  induction names generalizing entries left right with
  | nil => exact ⟨.ok rfl, rfl, fields⟩
  | cons name rest induction =>
      rw [readEntries, readEntries]
      cases naming.ofName? name with
      | none => exact ⟨.error (like.fault_refl _), rfl, fields⟩
      | some key =>
          obtain ⟨outcome, same, source⟩ := alike name fields
          dsimp only
          rcases outcome.either with ⟨first, second, failed, other, faults⟩ | ⟨_, _, done, other, -⟩
          · rw [failed, other]
            exact ⟨.error (like.in_field faults _), rfl, source⟩
          · rw [done, other, same]
            exact (induction _ source).after _ _

theorem read_record_alike {readKey readValue : Fields → Reading Val Fields}
    (keys : ∀ {left right}, like.fields left right →
      like.ReadingsAlike like.fields (readKey left) (readKey right))
    (values : ∀ {left right}, like.fields left right →
      like.ReadingsAlike like.fields (readValue left) (readValue right)) {left right : Slots}
    (slots : like.SlotsAlike left right) :
    like.ReadingsAlike like.SlotsAlike (readRecord readKey readValue left)
      (readRecord readKey readValue right) := by
  have site := like.respects_next
  unfold readRecord
  rcases structs_opened site slots with
    ⟨first, second, opened, other, faults⟩ | ⟨first, second, opened, other, records⟩
  · have opened : Slots.inlet.openStruct left = _ := opened
    have other : Slots.inlet.openStruct right = _ := other
    rw [opened, other]
    exact ⟨.error faults, rfl, site.next slots⟩
  · have opened : Slots.inlet.openStruct left = _ := opened
    have other : Slots.inlet.openStruct right = _ := other
    rw [opened, other]
    dsimp only
    obtain ⟨keyOutcome, sameKey, keySource⟩ := keys records
    rcases keyOutcome.either with ⟨first, second, failed, other, faults⟩ | ⟨_, _, done, other, -⟩
    · rw [failed, other, sameKey]
      exact ⟨.error (like.in_field faults _), rfl, site.struct slots keySource⟩
    · rw [done, other, sameKey]
      obtain ⟨valueOutcome, sameValue, valueSource⟩ := values keySource
      refine ⟨valueOutcome.map_error fun faults => like.in_field faults _, ?_,
        site.struct slots valueSource⟩
      exact congrArg (Prod.mk _) sameValue

end Containers

end Likeness

end Marshal
