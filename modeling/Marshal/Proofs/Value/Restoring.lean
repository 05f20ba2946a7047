import Marshal.Proofs.Structure.Leaves

/-!
# What reading a written value leaves

`Restores` says what becomes of a target when a written value is read into it: structures, tuples
and boxes are filled in place, so that their skipped fields stay the target's own, and whatever is
read into a fresh value starts from the default of its type. `Alike` says that two values agree
in all that is written. What is restored is alike to the value that was written, also where some
members of a structure lie inside others and are read one over the other.
-/

namespace Marshal

namespace Ty

/-- The types whose values are restored word by word. -/
def isPlain : Ty → Bool
  | .primitive .single => false
  | .primitive _ | .string | .textual _ | .enumeration _ => true
  | _ => false

end Ty

namespace Schema

variable (schema : Schema)

mutual

/-- What a target becomes, given the value that was written, at a type: the value, the target and
the result in this order. -/
inductive Restores : Ty → Val → Val → Val → Prop
  | plain {type : Ty} {value target : Val} (plain : type.isPlain = true) :
      Restores type value target value
  /-- A NaN that goes through a wider number stays one, but not of the same word. -/
  | single {value result : Number.Single} {target : Val}
      (same : result = value ∨ value.isNaN = true ∧ result.isNaN = true) :
      Restores (.primitive .single) (.single value) target (.single result)
  | record {name : String} {value target result : Val}
      (members : RestoresLeaves value (schema.leaves name) target result) :
      Restores (.record name) value target result
  | absent {inner : Ty} {target : Val} : Restores (.option inner) .absent target .absent
  | present {inner : Ty} {value target result : Val}
      (content : Restores inner value (schema.default inner) result) :
      Restores (.option inner) (.present value) target (.present result)
  | sequence {kind : SequenceKind} {item : Ty} {values results : List Val} {target : Val}
      (items : RestoresItems item values results) :
      Restores (.sequence kind item) (.list values) target (.list results)
  | map {kind : MapKind} {key value : Ty} {entries results : List (Val × Val)} {target : Val}
      (values : RestoresEntries value entries results) :
      Restores (.map kind key value) (.map entries) target (.map results)
  | tuple {types : List Ty} {values targets results : List Val}
      (slots : RestoresSlots types values targets results) :
      Restores (.tuple types) (.tuple values) (.tuple targets) (.tuple results)
  | boxed {inner : Ty} {value target result : Val} (content : Restores inner value target result) :
      Restores (.boxed inner) value target result

/-- Each plain member's value is restored where it lies, one member after the other. -/
inductive RestoresLeaves : Val → List Leaf → Val → Val → Prop
  | nil {value target : Val} : RestoresLeaves value [] target target
  | cons {leaf : Leaf} {rest : List Leaf} {value target result inner old new : Val}
      (written : value.get? leaf.path = some inner) (found : target.get? leaf.path = some old)
      (member : Restores leaf.type inner old new)
      (members : RestoresLeaves value rest (target.set leaf.path new) result) :
      RestoresLeaves value (leaf :: rest) target result

inductive RestoresItems : Ty → List Val → List Val → Prop
  | nil {item : Ty} : RestoresItems item [] []
  | cons {item : Ty} {value result : Val} {values results : List Val}
      (first : Restores item value (schema.default item) result)
      (rest : RestoresItems item values results) :
      RestoresItems item (value :: values) (result :: results)

/-- Keys are restored exactly. -/
inductive RestoresEntries : Ty → List (Val × Val) → List (Val × Val) → Prop
  | nil {type : Ty} : RestoresEntries type [] []
  | cons {type : Ty} {key value result : Val} {entries results : List (Val × Val)}
      (first : Restores type value (schema.default type) result)
      (rest : RestoresEntries type entries results) :
      RestoresEntries type ((key, value) :: entries) ((key, result) :: results)

inductive RestoresSlots : List Ty → List Val → List Val → List Val → Prop
  | nil : RestoresSlots [] [] [] []
  | cons {type : Ty} {types : List Ty} {value target result : Val}
      {values targets results : List Val} (first : Restores type value target result)
      (rest : RestoresSlots types values targets results) :
      RestoresSlots (type :: types) (value :: values) (target :: targets) (result :: results)

end

mutual

/-- That two values of a type agree in all that is written of them. Of a record that is its
members; what a record skips may differ. -/
inductive Alike : Ty → Val → Val → Prop
  | plain {type : Ty} {value : Val} (plain : type.isPlain = true) : Alike type value value
  | single {value other : Number.Single}
      (same : other = value ∨ value.isNaN = true ∧ other.isNaN = true) :
      Alike (.primitive .single) (.single value) (.single other)
  | record {name : String} {value other : Val}
      (present : ∀ leaf ∈ schema.leaves name, other.get? leaf.path ≠ none)
      (members : ∀ leaf ∈ schema.leaves name, ∀ inner otherInner,
        value.get? leaf.path = some inner → other.get? leaf.path = some otherInner →
          Alike leaf.type inner otherInner) :
      Alike (.record name) value other
  | absent {inner : Ty} : Alike (.option inner) .absent .absent
  | present {inner : Ty} {value other : Val} (content : Alike inner value other) :
      Alike (.option inner) (.present value) (.present other)
  | sequence {kind : SequenceKind} {item : Ty} {values others : List Val}
      (items : AlikeItems item values others) :
      Alike (.sequence kind item) (.list values) (.list others)
  | map {kind : MapKind} {key value : Ty} {entries others : List (Val × Val)}
      (values : AlikeEntries value entries others) :
      Alike (.map kind key value) (.map entries) (.map others)
  | tuple {types : List Ty} {values others : List Val} (slots : AlikeSlots types values others) :
      Alike (.tuple types) (.tuple values) (.tuple others)
  | boxed {inner : Ty} {value other : Val} (content : Alike inner value other) :
      Alike (.boxed inner) value other

inductive AlikeItems : Ty → List Val → List Val → Prop
  | nil {item : Ty} : AlikeItems item [] []
  | cons {item : Ty} {value other : Val} {values others : List Val}
      (first : Alike item value other) (rest : AlikeItems item values others) :
      AlikeItems item (value :: values) (other :: others)

inductive AlikeEntries : Ty → List (Val × Val) → List (Val × Val) → Prop
  | nil {type : Ty} : AlikeEntries type [] []
  | cons {type : Ty} {key value other : Val} {entries others : List (Val × Val)}
      (first : Alike type value other) (rest : AlikeEntries type entries others) :
      AlikeEntries type ((key, value) :: entries) ((key, other) :: others)

inductive AlikeSlots : List Ty → List Val → List Val → Prop
  | nil : AlikeSlots [] [] []
  | cons {type : Ty} {types : List Ty} {value other : Val} {values others : List Val}
      (first : Alike type value other) (rest : AlikeSlots types values others) :
      AlikeSlots (type :: types) (value :: values) (other :: others)

end

variable {schema}

theorem alike_unboxed (type : Ty) (value other : Val) :
    schema.Alike type.unboxed value other ↔ schema.Alike type value other := by
  cases type with
  | boxed inner =>
      rw [Ty.unboxed, alike_unboxed inner value other]
      constructor
      · exact .boxed
      · rintro (plain | _ | _ | _ | _ | _ | _ | _ | content)
        · cases plain
        · exact content
  | _ => rfl

theorem restores_unboxed (type : Ty) (value target result : Val) :
    schema.Restores type.unboxed value target result ↔
      schema.Restores type value target result := by
  cases type with
  | boxed inner =>
      rw [Ty.unboxed, restores_unboxed inner value target result]
      constructor
      · exact .boxed
      · rintro (plain | _ | _ | _ | _ | _ | _ | _ | content)
        · cases plain
        · exact content
  | _ => rfl

end Schema

end Marshal
