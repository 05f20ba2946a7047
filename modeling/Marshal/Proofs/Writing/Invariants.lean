import Marshal.Proofs.Writing.Paired
import Marshal.Proofs.Writing.Steps

/-!
# What writing maintains

A property of open containers that every operation of a sink maintains is maintained by whatever is
written into it, also where the writing fails.
-/

namespace Marshal

section Sinks

variable {Structs Arrays : Type}

/-- That writing at a place maintains a property of its container, if what is written inside of an
opened container maintains one of that. -/
structure Outlet.Maintains {State : Type} (structs : Structs → Prop) (arrays : Arrays → Prop)
    (holds : State → Prop) (outlet : Outlet Structs Arrays State) : Prop where
  put : ∀ scalar, (outlet.put scalar).Maintains holds
  leaveEmpty : outlet.leaveEmpty.Maintains holds
  withStruct : ∀ {body : Step Structs}, body.Maintains structs →
    (outlet.withStruct body).Maintains holds
  withArray : ∀ {body : Step Arrays}, body.Maintains arrays → (outlet.withArray body).Maintains holds

structure Sink.Maintains (structs : Structs → Prop) (arrays : Arrays → Prop)
    (sink : Sink Structs Arrays) : Prop where
  field : ∀ name, (sink.field name).Maintains structs arrays structs
  next : sink.next.Maintains structs arrays arrays

section Written

variable {structs : Structs → Prop} {arrays : Arrays → Prop} {sink : Sink Structs Arrays}

theorem Outlet.Maintains.relates {State : Type} {holds : State → Prop}
    {outlet : Outlet Structs Arrays State} (maintains : outlet.Maintains structs arrays holds) :
    outlet.Relates (fun first _ => first.Maintains structs) (fun first _ => first.Maintains arrays)
      (fun first _ => first.Maintains holds) outlet where
  put := maintains.put
  leaveEmpty := maintains.leaveEmpty
  fail := Step.fail_maintains
  withStruct := maintains.withStruct
  withArray := maintains.withArray

/-- A property is maintained on a sink beside itself. -/
def Sink.Maintains.pairing (maintains : sink.Maintains structs arrays) : Pairing sink sink where
  structs first _ := first.Maintains structs
  arrays first _ := first.Maintains arrays
  field _ first _ := first.Maintains structs
  next first _ := first.Maintains arrays
  fields_relate name := (maintains.field name).relates
  next_relates := maintains.next.relates
  done := Step.done_maintains
  fail := Step.fail_maintains
  andThen := Step.Maintains.andThen
  inField held := held.mapFault _
  allFrom each :=
    have both := each.imp fun _ _ held => And.intro held trivial
    Step.all_from_maintains (List.forall₂_and_left _ _ |>.mp both).1 0

/-- Writing a value maintains what every operation of its place and of the sink maintains. -/
theorem Schema.write_maintains (schema : Schema) (maintains : sink.Maintains structs arrays)
    (type : Ty) (value : Val) {State : Type} {holds : State → Prop}
    {outlet : Outlet Structs Arrays State} (place : outlet.Maintains structs arrays holds) :
    (schema.write sink type value outlet).Maintains holds :=
  maintains.pairing.write_related schema type value place.relates

end Written

end Sinks

end Marshal
