import Marshal.Proofs.Tree.Fields
import Marshal.Read.Source
import Marshal.Write.Sink

/-!
# Places of a tree document

A field and the next element of an array are written and read in the same way, up to what an
empty place is: an absent field or a null element. A place shows one node or none, and reading
from it leaves what later readings look at.
-/

namespace Marshal

/-- A place that is written through an outlet and read through an inlet. -/
structure TreePlace (State : Type) where
  outlet : Outlet Fields Slots State
  inlet : Inlet State
  /-- What writing a node, or nothing, makes of a container. -/
  leave : Option Node → State → State
  Shows : State → Option Node → Prop
  /-- What looking at the place makes of a container. -/
  next : State → State
  /-- That a container still is what it was to readings that come later. -/
  Keeps : State → State → Prop
  put_eq : ∀ scalar state, outlet.put scalar state = (.ok (), leave (some scalar.toNode) state)
  empty_eq : ∀ state, outlet.leaveEmpty state = (.ok (), leave none state)
  struct_eq : ∀ body state, outlet.withStruct body state =
    ((body []).1, leave (some (.struct (body []).2)) state)
  array_eq : ∀ body state, outlet.withArray body state =
    ((body .empty).1, leave (some (.ofSlots (body .empty).2)) state)
  not_exhausted : ∀ {state node?}, Shows state node? → inlet.isExhausted state = false
  holds_node : ∀ {state node}, Shows state (some node) → inlet.holdsValue state = !node.isNull
  holds_none : ∀ {state}, Shows state none → inlet.holdsValue state = false
  skip_eq : ∀ {state}, Shows state none → inlet.skip state = (.ok (), next state)
  value_eq : ∀ {state node}, Shows state (some node) →
    inlet.value state = (node.scalarValue, next state)
  open_struct_eq : ∀ {state node}, Shows state (some node) →
    inlet.openStruct state = (node.structFields, next state)
  open_array_eq : ∀ {state node}, Shows state (some node) →
    inlet.openArray state = (node.arraySlots, next state)
  next_keeps : ∀ {state node?}, Shows state node? → Keeps state (next state)
  struct_keeps : ∀ {state node?} child, Shows state node? →
    Keeps state (inlet.storeStruct child (next state))
  array_keeps : ∀ {state node?} child, Shows state node? →
    Keeps state (inlet.storeArray child (next state))

/-- A field, by its name. Readings of other fields do not see it. -/
def Fields.place (name : String) : TreePlace Fields where
  outlet := Fields.outlet name
  inlet := Fields.inlet name
  leave node? fields := match node? with
    | some node => fields.put name node
    | none => fields
  Shows fields node? := match node? with
    | some node => fields.get? name = some node
    | none => fields.holds name = false
  next fields := fields
  Keeps fields left := ∀ other, other ≠ name → left.get? other = fields.get? other
  put_eq _ _ := rfl
  empty_eq _ := rfl
  struct_eq _ _ := rfl
  array_eq _ _ := rfl
  not_exhausted _ := rfl
  holds_node shows := by
    simp only [Fields.inlet, Fields.holds, shows]
  holds_none shows := shows
  skip_eq _ := rfl
  value_eq shows := by
    simp only [Fields.inlet, Fields.find, shows]
    rfl
  open_struct_eq shows := by
    simp only [Fields.inlet, Fields.find, shows]
    rfl
  open_array_eq shows := by
    simp only [Fields.inlet, Fields.find, shows]
    rfl
  next_keeps _ _ _ := rfl
  struct_keeps child _ other different := by
    simp [Fields.inlet, Fields.get_put, Ne.symm different]
  array_keeps child _ other different := by
    simp [Fields.inlet, Fields.get_put, Ne.symm different]

theorem Fields.shows_of_get {fields : Fields} {name : String} {node? : Option Node}
    (shown : fields.get? name = node?) : (Fields.place name).Shows fields node? := by
  cases node? with
  | none =>
      have empty : fields.holds name = false := by rw [Fields.holds, shown]
      exact empty
  | some node => exact shown

/-- What is left at a field that holds nothing is what it shows. -/
theorem Fields.shows_leave {fields : Fields} {name : String} (empty : fields.holds name = false)
    (node? : Option Node) :
    (Fields.place name).Shows ((Fields.place name).leave node? fields) node? := by
  cases node? with
  | none => exact empty
  | some node => exact (Fields.get_put fields name name node).trans (if_pos rfl)

/-- The next element of an array. The elements after it stay where they are. -/
def Slots.place : TreePlace Slots where
  outlet := Slots.outlet
  inlet := Slots.inlet
  leave node? slots := slots.push (node?.getD .null)
  Shows slots node? := slots.current? = some (node?.getD .null)
  next slots := slots.advance
  Keeps slots left := left.cursor = slots.cursor + 1 ∧ left.items.length = slots.items.length ∧
    ∀ position, slots.cursor < position → left.items[position]? = slots.items[position]?
  put_eq _ _ := rfl
  empty_eq _ := rfl
  struct_eq _ _ := rfl
  array_eq _ _ := rfl
  not_exhausted shows := by
    obtain ⟨inside, -⟩ := List.getElem?_eq_some_iff.mp shows
    simpa [Slots.inlet, Slots.isComplete] using inside
  holds_node shows := by
    simp only [Slots.inlet, Slots.currentHolds, shows, Option.getD_some]
  holds_none shows := by
    simp only [Slots.inlet, Slots.currentHolds, shows, Option.getD_none, Node.isNull, Bool.not_true]
  skip_eq shows := by
    simp only [Slots.inlet, Slots.next, shows]
    rfl
  value_eq shows := by
    simp only [Slots.inlet, Slots.next, shows, Option.getD_some]
    rfl
  open_struct_eq shows := by
    simp only [Slots.inlet, Slots.next, shows, Option.getD_some]
    rfl
  open_array_eq shows := by
    simp only [Slots.inlet, Slots.next, shows, Option.getD_some]
    rfl
  next_keeps _ := ⟨rfl, rfl, fun _ _ => rfl⟩
  struct_keeps child _ := by
    refine ⟨rfl, by simp [Slots.inlet, Slots.setAt, Slots.advance], ?_⟩
    intro position later
    simp only [Slots.inlet, Slots.setAt, Slots.advance, Nat.add_sub_cancel]
    exact List.getElem?_set_ne (by omega)
  array_keeps child _ := by
    refine ⟨rfl, by simp [Slots.inlet, Slots.setAt, Slots.advance], ?_⟩
    intro position later
    simp only [Slots.inlet, Slots.setAt, Slots.advance, Nat.add_sub_cancel]
    exact List.getElem?_set_ne (by omega)

end Marshal
