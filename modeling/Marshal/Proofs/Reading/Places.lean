import Marshal.Proofs.Tree.Place
import Marshal.Read.Value

/-!
# A node is read alike wherever it stands

What a reading answers and makes of its target goes by the node at its place, and not by the
container around it: a field and an element with the same node are read alike. Whatever the
outcome, the container is left as later readings need it.
-/

namespace Marshal

/-- That two readings differ at most in the sources that they leave. -/
structure Reading.Same {Target Left Right : Type} (left : Reading Target Left)
    (right : Reading Target Right) : Prop where
  outcome : left.outcome = right.outcome
  target : left.target = right.target
  log : left.log = right.log

namespace TreePlace

variable {State : Type}

/-- That an optional can pass over its place: over a null, and over what a reading of its content
has not used up. -/
structure Passable (place : TreePlace State) : Prop where
  null : ∀ {state}, place.Shows state (some .null) → place.Shows state none
  unused : ∀ {state left}, place.Keeps state left →
    place.inlet.position left = place.inlet.position state →
      ∃ next, place.inlet.skip left = (.ok (), next) ∧ place.Keeps state next

end TreePlace

theorem Fields.place_passable (name : String) : (Fields.place name).Passable where
  null shows := by
    simp only [Fields.place] at shows ⊢
    rw [Fields.holds, shows]
    rfl
  unused keeps _ := ⟨_, rfl, keeps⟩

theorem Slots.place_passable : Slots.place.Passable where
  null shows := shows
  unused keeps unmoved := absurd unmoved (by
    have moved := keeps.1
    simp only [Slots.place, Slots.inlet]
    omega)

section Scalars

variable {Left Right State : Type} {left : TreePlace Left} {right : TreePlace Right}
variable {place : TreePlace State} {node : Node} {leftState : Left} {rightState : Right}
variable {state : State}

theorem read_scalar_keeps (decode : AnyValue → Except Fault Val) (target : Val)
    (shows : place.Shows state (some node)) :
    place.Keeps state (readScalar place.inlet decode target state).source := by
  unfold readScalar
  rw [place.value_eq shows]
  cases node.scalarValue with
  | error fault => exact place.next_keeps shows
  | ok source =>
      dsimp only
      cases decode source with
      | error fault => exact place.next_keeps shows
      | ok value => exact place.next_keeps shows

theorem read_scalar_same (decode : AnyValue → Except Fault Val) (target : Val)
    (leftShows : left.Shows leftState (some node)) (rightShows : right.Shows rightState (some node)) :
    (readScalar left.inlet decode target leftState).Same
      (readScalar right.inlet decode target rightState) := by
  unfold readScalar
  rw [left.value_eq leftShows, right.value_eq rightShows]
  cases node.scalarValue with
  | error fault => exact ⟨rfl, rfl, rfl⟩
  | ok source =>
      dsimp only
      cases decode source with
      | error fault => exact ⟨rfl, rfl, rfl⟩
      | ok value => exact ⟨rfl, rfl, rfl⟩

end Scalars

section Optionals

variable {Left Right State : Type} {left : TreePlace Left} {right : TreePlace Right}
variable {place : TreePlace State} {leftState : Left} {rightState : Right} {state : State}

/-- At a place that can be passed over, settling fails only where the content is not absorbed. -/
theorem settle_optional_eq (passable : place.Passable) (inner : Ty) (target : Val)
    (content : Reading Val State) (keeps : place.Keeps state content.source) :
    ∃ left, place.Keeps state left ∧ settleOptional place.inlet inner target state content =
      match content.outcome with
      | .ok () => ⟨.ok (), .present content.target, left, content.log⟩
      | .error fault =>
          if fault.isAbsorbable then
            ⟨.ok (), .absent, left, content.log ++
              Log.debug s!"optional `{inner.name}` reset to none: {fault.message}"⟩
          else ⟨.error fault, target, left, content.log⟩ := by
  unfold settleOptional
  cases content.outcome with
  | ok done => exact ⟨_, keeps, rfl⟩
  | error fault =>
      dsimp only
      split_ifs with absorbable unused
      · obtain ⟨next, skipped, nextKeeps⟩ := passable.unused keeps unused.1
        rw [skipped]
        exact ⟨next, nextKeeps, rfl⟩
      · exact ⟨_, keeps, rfl⟩
      · exact ⟨_, keeps, rfl⟩

theorem settle_optional_same (leftPassable : left.Passable) (rightPassable : right.Passable)
    (inner : Ty) (target : Val) {leftContent : Reading Val Left} {rightContent : Reading Val Right}
    (leftKeeps : left.Keeps leftState leftContent.source)
    (rightKeeps : right.Keeps rightState rightContent.source)
    (same : leftContent.Same rightContent) :
    (settleOptional left.inlet inner target leftState leftContent).Same
      (settleOptional right.inlet inner target rightState rightContent) := by
  obtain ⟨leftLeft, -, leftEq⟩ :=
    settle_optional_eq leftPassable inner target leftContent leftKeeps
  obtain ⟨rightLeft, -, rightEq⟩ :=
    settle_optional_eq rightPassable inner target rightContent rightKeeps
  rw [leftEq, rightEq, same.outcome, same.target, same.log]
  cases rightContent.outcome with
  | ok done => exact ⟨rfl, rfl, rfl⟩
  | error fault =>
      dsimp only
      split_ifs
      · exact ⟨rfl, rfl, rfl⟩
      · exact ⟨rfl, rfl, rfl⟩

end Optionals

namespace Schema

variable {schema : Schema} (deeper : String → Val → Fields → Reading Val Fields)

/-- Reading at a place that shows a node leaves the container to later readings. The recursion
follows a type as far as it is read at one and the same place. -/
theorem read_at_keeps (type : Ty) (target : Val) {State : Type} {place : TreePlace State}
    (passable : place.Passable) {state : State} {node : Node}
    (shows : place.Shows state (some node)) :
    place.Keeps state (schema.readAt deeper type target place.inlet state).source := by
  cases type with
  | primitive scalar =>
      rw [readAt]
      exact read_scalar_keeps _ target shows
  | string =>
      rw [readAt]
      exact read_scalar_keeps _ target shows
  | textual name =>
      rw [readAt]
      exact read_scalar_keeps _ target shows
  | enumeration name =>
      rw [readAt]
      exact read_scalar_keeps _ target shows
  | record name =>
      rw [readAt, place.open_struct_eq shows]
      cases node.structFields with
      | error fault => exact place.next_keeps shows
      | ok child => exact place.struct_keeps _ shows
  | option inner =>
      rw [readAt, place.not_exhausted shows]
      simp only [Bool.false_eq_true, if_false]
      cases holds : place.inlet.holdsValue state with
      | true =>
          simp only [if_true]
          have content := read_at_keeps inner (schema.default inner) passable shows
          obtain ⟨left, keeps, settled⟩ := settle_optional_eq passable inner target _ content
          rw [settled]
          split
          · exact keeps
          · split_ifs
            · exact keeps
            · exact keeps
      | false =>
          simp only [Bool.false_eq_true, if_false]
          rw [place.holds_node shows] at holds
          cases node with
          | null =>
              have empty := passable.null shows
              rw [place.skip_eq empty]
              exact place.next_keeps empty
          | _ => cases holds
  | sequence kind item =>
      rw [readAt, place.open_array_eq shows]
      cases node.arraySlots with
      | error fault => exact place.next_keeps shows
      | ok child => exact place.array_keeps _ shows
  | map kind key value =>
      rw [readAt]
      cases schema.keyNaming? key with
      | some naming =>
          dsimp only
          rw [place.open_struct_eq shows]
          cases node.structFields with
          | error fault => exact place.next_keeps shows
          | ok child => exact place.struct_keeps _ shows
      | none =>
          dsimp only
          rw [place.open_array_eq shows]
          cases node.arraySlots with
          | error fault => exact place.next_keeps shows
          | ok child => exact place.array_keeps _ shows
  | tuple slots =>
      rw [readAt, place.open_array_eq shows]
      cases node.arraySlots with
      | error fault => exact place.next_keeps shows
      | ok child => exact place.array_keeps _ shows
  | boxed inner =>
      rw [readAt]
      exact read_at_keeps inner target passable shows

/-- A node is read alike at any two places. -/
theorem read_at_same (type : Ty) (target : Val) {Left Right : Type} {left : TreePlace Left}
    {right : TreePlace Right} (leftPassable : left.Passable) (rightPassable : right.Passable)
    {leftState : Left} {rightState : Right} {node : Node}
    (leftShows : left.Shows leftState (some node)) (rightShows : right.Shows rightState (some node)) :
    (schema.readAt deeper type target left.inlet leftState).Same
      (schema.readAt deeper type target right.inlet rightState) := by
  cases type with
  | primitive scalar =>
      rw [readAt, readAt]
      exact read_scalar_same _ target leftShows rightShows
  | string =>
      rw [readAt, readAt]
      exact read_scalar_same _ target leftShows rightShows
  | textual name =>
      rw [readAt, readAt]
      exact read_scalar_same _ target leftShows rightShows
  | enumeration name =>
      rw [readAt, readAt]
      exact read_scalar_same _ target leftShows rightShows
  | record name =>
      rw [readAt, readAt, left.open_struct_eq leftShows, right.open_struct_eq rightShows]
      cases node.structFields with
      | error fault => exact ⟨rfl, rfl, rfl⟩
      | ok child => exact ⟨rfl, rfl, rfl⟩
  | option inner =>
      rw [readAt, readAt, left.not_exhausted leftShows, right.not_exhausted rightShows,
        left.holds_node leftShows, right.holds_node rightShows]
      simp only [Bool.false_eq_true, if_false]
      split_ifs with holds
      · have content := read_at_same inner (schema.default inner) leftPassable rightPassable
          leftShows rightShows
        exact settle_optional_same leftPassable rightPassable inner target
          (read_at_keeps deeper inner _ leftPassable leftShows)
          (read_at_keeps deeper inner _ rightPassable rightShows) content
      · cases node with
        | null =>
            rw [left.skip_eq (leftPassable.null leftShows),
              right.skip_eq (rightPassable.null rightShows)]
            exact ⟨rfl, rfl, rfl⟩
        | _ => exact absurd rfl holds
  | sequence kind item =>
      rw [readAt, readAt, left.open_array_eq leftShows, right.open_array_eq rightShows]
      cases node.arraySlots with
      | error fault => exact ⟨rfl, rfl, rfl⟩
      | ok child => exact ⟨rfl, rfl, rfl⟩
  | map kind key value =>
      rw [readAt, readAt]
      cases schema.keyNaming? key with
      | some naming =>
          dsimp only
          rw [left.open_struct_eq leftShows, right.open_struct_eq rightShows]
          cases node.structFields with
          | error fault => exact ⟨rfl, rfl, rfl⟩
          | ok child => exact ⟨rfl, rfl, rfl⟩
      | none =>
          dsimp only
          rw [left.open_array_eq leftShows, right.open_array_eq rightShows]
          cases node.arraySlots with
          | error fault => exact ⟨rfl, rfl, rfl⟩
          | ok child => exact ⟨rfl, rfl, rfl⟩
  | tuple slots =>
      rw [readAt, readAt, left.open_array_eq leftShows, right.open_array_eq rightShows]
      cases node.arraySlots with
      | error fault => exact ⟨rfl, rfl, rfl⟩
      | ok child => exact ⟨rfl, rfl, rfl⟩
  | boxed inner =>
      rw [readAt, readAt]
      exact read_at_same inner target leftPassable rightPassable leftShows rightShows

end Schema

end Marshal
