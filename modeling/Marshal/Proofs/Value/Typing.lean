import Marshal.Proofs.Value.Path
import Marshal.Schema

/-!
# Values of a type

Which values a type has under a schema. Boxes do not show in a value, and a path of field names
leads from a structure's values to values of the type that it ends at.
-/

namespace Marshal

namespace Ty

/-- A type without the boxes around it. -/
def unboxed : Ty → Ty
  | .boxed inner => unboxed inner
  | type => type

/-- Whether a value of a type may leave its place empty. -/
def isOptional (type : Ty) : Bool :=
  match type.unboxed with
  | .option _ => true
  | _ => false

end Ty

namespace Schema

variable {schema : Schema}

/-- The values of a type. Integers are in range; a record has the fields of its structure in their
order; the keys of a map are equal to themselves and stand in order, each greater than those before
it.

Maps of all three kinds are values in key order. Hashed and quick maps go through their entries in an
order of their own, which nothing here fixes and which may differ from one run to the next. It is taken
to be that of the keys, so what is said of the order in which entries are written is said of ordered
maps only. -/
inductive HasType (schema : Schema) : Ty → Val → Prop
  | bool (value : Bool) : HasType schema (.primitive .bool) (.bool value)
  | int {kind : IntKind} {number : Int} (fits : kind.holds number = true) :
      HasType schema (.primitive (.int kind)) (.int number)
  | single (value : Number.Single) : HasType schema (.primitive .single) (.single value)
  | double (value : Number.Double) : HasType schema (.primitive .double) (.double value)
  | string (text : String) : HasType schema .string (.text text)
  | textual {name : String} (text : String) : HasType schema (.textual name) (.text text)
  | enumeration {name : String} (code : Int) : HasType schema (.enumeration name) (.enumerator code)
  | record {name : String} {fields : List (String × Val)}
      (names : fields.map Prod.fst = (schema.structureInfo name).fields.map Prod.fst)
      (typed : ∀ field type, (field, type) ∈ (schema.structureInfo name).fields →
        ∀ value, Val.lookup fields field = some value → HasType schema type value) :
      HasType schema (.record name) (.record fields)
  | absent {inner : Ty} : HasType schema (.option inner) .absent
  | present {inner : Ty} {value : Val} (typed : HasType schema inner value) :
      HasType schema (.option inner) (.present value)
  | sequence {kind : SequenceKind} {item : Ty} {items : List Val}
      (typed : ∀ value ∈ items, HasType schema item value) :
      HasType schema (.sequence kind item) (.list items)
  | map {kind : MapKind} {key value : Ty} {entries : List (Val × Val)}
      (keys : ∀ entry ∈ entries, HasType schema key entry.1)
      (comparable : ∀ entry ∈ entries, entry.1.equal entry.1 = true)
      (values : ∀ entry ∈ entries, HasType schema value entry.2)
      (sorted : entries.Pairwise fun earlier later => Val.order later.1 earlier.1 = .gt) :
      HasType schema (.map kind key value) (.map entries)
  | tuple {types : List Ty} {slots : List Val}
      (typed : List.Forall₂ (HasType schema) types slots) :
      HasType schema (.tuple types) (.tuple slots)
  | boxed {inner : Ty} {value : Val} (typed : HasType schema inner value) :
      HasType schema (.boxed inner) value

theorem has_type_unboxed (type : Ty) (value : Val) :
    schema.HasType type.unboxed value ↔ schema.HasType type value := by
  cases type with
  | boxed inner =>
      rw [Ty.unboxed, has_type_unboxed inner value]
      constructor
      · exact .boxed
      · rintro ⟨⟩
        assumption
  | _ => rfl

/-- That a path leads from the values of a type to values of another. Boxes on the way do not
show. -/
def Leads (schema : Schema) : Ty → Val.Path → Ty → Prop
  | type, [], target => type.unboxed = target.unboxed
  | type, field :: rest, target =>
      ∃ name inner, type.unboxed = .record name ∧
        (field, inner) ∈ (schema.structureInfo name).fields ∧ schema.Leads inner rest target

/-- A structure's fields have distinct names. -/
def FieldsDistinct (schema : Schema) : Prop :=
  ∀ name, ((schema.structureInfo name).fields.map Prod.fst).Nodup

theorem lookup_present {fields : List (String × Val)} {field : String}
    (known : field ∈ fields.map Prod.fst) : ∃ value, Val.lookup fields field = some value := by
  induction fields with
  | nil => simp at known
  | cons first rest induction =>
      obtain ⟨name, value⟩ := first
      rw [Val.lookup_cons]
      split_ifs with same
      · exact ⟨value, rfl⟩
      · apply induction
        rcases List.mem_cons.mp known with same' | inside
        · exact absurd same'.symm same
        · exact inside

theorem typed_field {name field : String} {inner : Ty} {fields : List (String × Val)}
    (typed : schema.HasType (.record name) (.record fields))
    (known : (field, inner) ∈ (schema.structureInfo name).fields) :
    ∃ value, Val.lookup fields field = some value ∧ schema.HasType inner value := by
  cases typed with
  | record names typed =>
      have present : field ∈ fields.map Prod.fst := by
        rw [names]
        exact List.mem_map_of_mem known
      obtain ⟨value, found⟩ := lookup_present present
      exact ⟨value, found, typed field inner known value found⟩

theorem typed_record {name : String} {value : Val} (typed : schema.HasType (.record name) value) :
    ∃ fields, value = .record fields := by
  cases typed
  exact ⟨_, rfl⟩

theorem leads_get {type target : Ty} {path : Val.Path} {value : Val}
    (leads : schema.Leads type path target) (typed : schema.HasType type value) :
    ∃ inner, value.get? path = some inner ∧ schema.HasType target inner := by
  induction path generalizing type value with
  | nil =>
      rw [← has_type_unboxed, leads, has_type_unboxed] at typed
      exact ⟨value, rfl, typed⟩
  | cons field rest induction =>
      obtain ⟨name, inner, unboxed, known, further⟩ := leads
      rw [← has_type_unboxed, unboxed] at typed
      obtain ⟨fields, rfl⟩ := typed_record typed
      obtain ⟨middle, found, middleTyped⟩ := typed_field typed known
      obtain ⟨last, reached, lastTyped⟩ := induction further middleTyped
      exact ⟨last, by rw [Val.get?, found, Option.bind_some, reached], lastTyped⟩

theorem leads_found {type target : Ty} {path : Val.Path} {value inner : Val}
    (leads : schema.Leads type path target) (typed : schema.HasType type value)
    (found : value.get? path = some inner) : schema.HasType target inner := by
  obtain ⟨_, reached, innerTyped⟩ := leads_get leads typed
  rw [found] at reached
  cases reached
  exact innerTyped

theorem field_type (distinct : schema.FieldsDistinct) {record field : String} {left right : Ty}
    (leftKnown : (field, left) ∈ (schema.structureInfo record).fields)
    (rightKnown : (field, right) ∈ (schema.structureInfo record).fields) : left = right :=
  congrArg Prod.snd (List.inj_on_of_nodup_map (distinct record) leftKnown rightKnown rfl)

theorem leads_set (distinct : schema.FieldsDistinct) {type target : Ty} {path : Val.Path}
    {value replacement : Val} (leads : schema.Leads type path target)
    (typed : schema.HasType type value) (fits : schema.HasType target replacement) :
    schema.HasType type (value.set path replacement) := by
  induction path generalizing type value with
  | nil =>
      rw [Val.set, ← has_type_unboxed, leads, has_type_unboxed]
      exact fits
  | cons field rest induction =>
      obtain ⟨name, inner, unboxed, known, further⟩ := leads
      rw [← has_type_unboxed, unboxed] at typed ⊢
      obtain ⟨fields, rfl⟩ := typed_record typed
      obtain ⟨middle, found, middleTyped⟩ := typed_field typed known
      have replaced := induction further middleTyped
      simp only [Val.set, found]
      cases typed with
      | record names typed =>
          apply HasType.record (by rw [Val.names_update, names])
          intro other type member last reached
          by_cases same : field = other
          · subst same
            rw [Val.lookup_update_own found] at reached
            cases reached
            rwa [field_type distinct member known]
          · rw [Val.lookup_update_other same] at reached
            exact typed other type member last reached

end Schema

end Marshal
