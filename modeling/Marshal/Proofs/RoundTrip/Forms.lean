import Marshal.Proofs.Reading.Places
import Marshal.Proofs.RoundTrip.Arrival
import Marshal.Proofs.RoundTrip.Values

/-!
# Fields and elements are written and read alike

Writing a value as a field and as the next element of an array has the same outcome and leaves the
same node; where a field is left out the element is null. Reading one node in either form has the
same outcome and makes the same of its target.
-/

namespace Marshal

/-- What writing a value does at a place, wherever that is. -/
inductive Imprint
  /-- A container is left also where writing its contents has failed. -/
  | filled (outcome : Except Fault Unit) (node : Node) (solid : node ≠ .null)
  | empty
  | refused (fault : Fault)

namespace Imprint

variable {State : Type}

def on (place : TreePlace State) : Imprint → Step State
  | .filled outcome node _ => fun state => (outcome, place.leave (some node) state)
  | .empty => fun state => (.ok (), place.leave none state)
  | .refused fault => .fail fault

def isEmpty : Imprint → Bool
  | .empty => true
  | .filled _ _ _ | .refused _ => false

theorem put_eq (scalar : Scalar) : ∃ imprint : Imprint, imprint.isEmpty = false ∧
    ∀ {State : Type} (place : TreePlace State), place.outlet.put scalar = imprint.on place := by
  have solid : scalar.toNode ≠ .null := by cases scalar <;> simp [Scalar.toNode]
  exact ⟨.filled (.ok ()) scalar.toNode solid, rfl, fun place => funext (place.put_eq scalar)⟩

theorem struct_eq (body : Step Fields) : ∃ imprint : Imprint, imprint.isEmpty = false ∧
    ∀ {State : Type} (place : TreePlace State), place.outlet.withStruct body = imprint.on place :=
  ⟨.filled (body []).1 (.struct (body []).2) (by simp), rfl,
    fun place => funext (place.struct_eq body)⟩

theorem array_eq (body : Step Slots) : ∃ imprint : Imprint, imprint.isEmpty = false ∧
    ∀ {State : Type} (place : TreePlace State), place.outlet.withArray body = imprint.on place :=
  ⟨.filled (body .empty).1 (.ofSlots (body .empty).2) (by simp [Node.ofSlots]), rfl,
    fun place => funext (place.array_eq body)⟩

end Imprint

namespace Schema

/-- What is written of a value does not depend on its place, and is nothing where the value is left
out. The recursion follows a type as far as it is written at one and the same place. -/
theorem write_at_leaves_imprint (schema : Schema) (deeper : String → Val → Step Fields) (type : Ty)
    (value : Val) : ∃ imprint : Imprint, imprint.isEmpty = type.leavesOut value ∧
      ∀ {State : Type} (place : TreePlace State),
        schema.writeAt treeSink deeper type value place.outlet = imprint.on place := by
  cases type with
  | primitive scalar =>
      simp only [writeAt]
      exact Imprint.put_eq _
  | string =>
      simp only [writeAt]
      exact Imprint.put_eq _
  | textual name =>
      simp only [writeAt]
      exact Imprint.put_eq _
  | enumeration name =>
      simp only [writeAt]
      cases (schema.enumerationInfo name).nameOf value.asCode with
      | ok text => exact Imprint.put_eq _
      | error fault => exact ⟨.refused fault, rfl, fun _ => funext fun _ => rfl⟩
  | record name =>
      simp only [writeAt]
      exact Imprint.struct_eq _
  | option inner =>
      simp only [writeAt]
      cases value with
      | present content => exact write_at_leaves_imprint schema deeper inner content
      | _ => exact ⟨.empty, rfl, fun place => funext fun state => place.empty_eq state⟩
  | sequence kind item =>
      simp only [writeAt]
      exact Imprint.array_eq _
  | map kind key inner =>
      simp only [writeAt]
      cases schema.keyNaming? key with
      | some naming => exact Imprint.struct_eq _
      | none => exact Imprint.array_eq _
  | tuple slots =>
      simp only [writeAt]
      exact Imprint.array_eq _
  | boxed inner =>
      simp only [writeAt]
      exact write_at_leaves_imprint schema deeper inner value

theorem write_at_imprint (schema : Schema) (deeper : String → Val → Step Fields) (type : Ty)
    (value : Val) : ∃ imprint : Imprint, ∀ {State : Type} (place : TreePlace State),
      schema.writeAt treeSink deeper type value place.outlet = imprint.on place :=
  (schema.write_at_leaves_imprint deeper type value).imp fun _ known => known.2

/-- A value is written as a field and as an element with one outcome. A node that is left is the same
in both forms; where a field is left out, the element is null if the writing has succeeded and is not
there if it has failed. A node is read in both forms with one outcome and to the same value. -/
theorem named_and_next_agree (schema : Schema) (type : Ty) :
    (∀ value name fields slots, Fields.get? fields name = none →
      let named := schema.writeNamed type value name fields
      let next := schema.writeNext type value slots
      next.1 = named.1 ∧
        ((∃ node, node ≠ .null ∧ named.2 = fields ++ [(name, node)] ∧ next.2 = slots.push node) ∨
          named.2 = fields ∧
            (named.1 = .ok () ∧ next.2 = slots.push .null ∨ named.1 ≠ .ok () ∧ next.2 = slots))) ∧
    ∀ target node name fields slots, Fields.get? fields name = some node →
      slots.current? = some node →
        (schema.readNamed type target name fields).Same (schema.readNext type target slots) := by
  constructor
  · intro value name fields slots fresh
    obtain ⟨imprint, uniform⟩ :=
      schema.write_at_imprint (writeStructure schema treeSink value.depth) type value
    have named : schema.writeNamed type value name fields = imprint.on (Fields.place name) fields :=
      congrFun (uniform (Fields.place name)) fields
    have next : schema.writeNext type value slots = imprint.on Slots.place slots :=
      congrFun (uniform Slots.place) slots
    rw [named, next]
    cases imprint with
    | filled outcome node solid =>
        have appended := Fields.put_absent (Fields.absent_of_get fresh) node
        exact ⟨rfl, .inl ⟨node, solid, appended, rfl⟩⟩
    | empty => exact ⟨rfl, .inr ⟨rfl, .inl ⟨rfl, rfl⟩⟩⟩
    | refused fault => exact ⟨rfl, .inr ⟨rfl, .inr ⟨nofun, rfl⟩⟩⟩
  · intro target node name fields slots found current
    exact read_at_same schema.readObject type target (Fields.place_passable name)
      Slots.place_passable (Fields.shows_of_get found) current

end Schema

/-- A count that is written in both forms, and an array that is passed over in place of one. -/
theorem Schema.named_and_next_agree_count :
    let slots : Slots := ⟨[.null, .array [] 0], 1⟩
    Fields.get? [] "count" = none ∧
      Route.schema.writeNext Route.count (.present (.int 4)) .empty = (.ok (), ⟨[.uint 4], 0⟩) ∧
      Fields.get? [("count", .array [] 0)] "count" = some (.array [] 0) ∧
      slots.current? = some (.array [] 0) ∧
      (Route.schema.readNamed Route.count (.present (.int 4)) "count"
        [("count", .array [] 0)]).Same
          (Route.schema.readNext Route.count (.present (.int 4)) slots) := by
  intro slots
  obtain ⟨writes, reads⟩ := named_and_next_agree Route.schema Route.count
  obtain ⟨outcome, left⟩ := writes (.present (.int 4)) "count" [] .empty rfl
  have named : Route.schema.writeNamed Route.count (.present (.int 4)) "count" [] =
      (.ok (), [("count", .uint 4)]) := by
    simp only [writeNamed, write, Route.count, Ty.int, writeAt, Val.content?]
    rfl
  rw [named] at outcome left
  have next : (Route.schema.writeNext Route.count (.present (.int 4)) .empty).2 =
      ⟨[.uint 4], 0⟩ := by
    rcases left with ⟨node, -, left, next⟩ | ⟨left, -⟩
    · cases left
      exact next
    · cases left
  exact ⟨rfl, Prod.ext outcome next, rfl, rfl, reads _ _ "count" _ slots rfl rfl⟩

end Marshal
