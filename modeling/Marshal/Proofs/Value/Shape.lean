import Marshal.Proofs.Value.Overwriting

/-!
# Parts that are replaced as a whole

Reading goes into records, tuples and boxes in place and replaces whatever else it comes to. The
places where something is replaced therefore lie apart from each other. What matters of a value for
reading into it is its shape: that of its records and tuples, as far as they are read in place.
-/

namespace Marshal

/-- Whether a value of a type is replaced where it is read, and not read into in place. -/
def Ty.isReplaced (type : Ty) : Bool :=
  match type.unboxed with
  | .record _ | .tuple _ => false
  | _ => true

theorem Ty.unboxed_unboxed (type : Ty) : type.unboxed.unboxed = type.unboxed := by
  cases type with
  | boxed inner => exact unboxed_unboxed inner
  | _ => rfl

namespace Schema

/-- That a trail leads from the values of a type to values of another. -/
def Reaches (schema : Schema) : Ty → Trail → Ty → Prop
  | type, [], target => type.unboxed = target.unboxed
  | type, .field name :: rest, target =>
      ∃ record inner, type.unboxed = .record record ∧
        (name, inner) ∈ (schema.structureInfo record).fields ∧ schema.Reaches inner rest target
  | type, .index position :: rest, target =>
      ∃ types inner, type.unboxed = .tuple types ∧ types[position]? = some inner ∧
        schema.Reaches inner rest target

/-- That a trail leads to something that is replaced. -/
def Replaces (schema : Schema) (type : Ty) (trail : Trail) : Prop :=
  ∃ target, schema.Reaches type trail target ∧ target.isReplaced = true

/-- The values that have the records and tuples of a type, as far as these are read in place. -/
inductive Shaped (schema : Schema) : Ty → Val → Prop
  | replaced {type : Ty} {value : Val} (replaced : type.isReplaced = true) : Shaped schema type value
  | record {name : String} {fields : List (String × Val)}
      (shaped : ∀ field type, (field, type) ∈ (schema.structureInfo name).fields →
        ∀ value, Val.lookup fields field = some value → Shaped schema type value) :
      Shaped schema (.record name) (.record fields)
  | tuple {types : List Ty} {slots : List Val} (size : slots.length = types.length)
      (shaped : ∀ (position : Nat) type value, types[position]? = some type →
        slots[position]? = some value → Shaped schema type value) :
      Shaped schema (.tuple types) (.tuple slots)
  | boxed {inner : Ty} {value : Val} (shaped : Shaped schema inner value) :
      Shaped schema (.boxed inner) value

variable {schema : Schema}

theorem not_inside_replaced {type target inner : Ty} {segment : Segment} {rest : Trail}
    (own : schema.Reaches type [] target) (replaced : target.isReplaced = true)
    (inside : schema.Reaches type (segment :: rest) inner) : False := by
  have same : type.unboxed = target.unboxed := own
  rw [Ty.isReplaced, ← same] at replaced
  cases segment with
  | field name =>
      obtain ⟨record, inner, unboxed, -⟩ := inside
      simp [unboxed] at replaced
  | index position =>
      obtain ⟨types, inner, unboxed, -⟩ := inside
      simp [unboxed] at replaced

/-- Nothing is replaced inside of what is itself replaced. -/
theorem replaces_apart (distinct : schema.FieldsDistinct) {type : Ty} {left right : Trail}
    (leftReplaces : schema.Replaces type left) (rightReplaces : schema.Replaces type right) :
    right = left ∨ left.Apart right := by
  obtain ⟨leftTarget, leftReaches, leftReplaced⟩ := leftReplaces
  obtain ⟨rightTarget, rightReaches, rightReplaced⟩ := rightReplaces
  induction left generalizing type right with
  | nil =>
      cases right with
      | nil => exact .inl rfl
      | cons segment right => exact (not_inside_replaced leftReaches leftReplaced rightReaches).elim
  | cons segment left induction =>
      cases right with
      | nil => exact (not_inside_replaced rightReaches rightReplaced leftReaches).elim
      | cons other right =>
          by_cases same : segment = other
          · subst same
            suffices further : right = left ∨ Trail.Apart left right from
              further.imp (congrArg _) fun apart _ => apart
            cases segment with
            | field name =>
                obtain ⟨record, inner, unboxed, known, leftFurther⟩ := leftReaches
                obtain ⟨other, second, again, knownToo, rightFurther⟩ := rightReaches
                rw [unboxed] at again
                cases again
                exact induction leftFurther (field_type distinct known knownToo ▸ rightFurther)
            | index position =>
                obtain ⟨types, inner, unboxed, known, leftFurther⟩ := leftReaches
                obtain ⟨others, second, again, knownToo, rightFurther⟩ := rightReaches
                rw [unboxed] at again
                cases again
                rw [known] at knownToo
                cases knownToo
                exact induction leftFurther rightFurther
          · exact .inr fun equal => absurd equal same

theorem reaches_unboxed (type : Ty) (trail : Trail) (target : Ty) :
    schema.Reaches type.unboxed trail target ↔ schema.Reaches type trail target := by
  have again := Ty.unboxed_unboxed type
  cases trail with
  | nil => simp only [Reaches, again]
  | cons segment rest => cases segment <;> simp only [Reaches, again]

theorem leads_reaches {type middle target : Ty} {path : Val.Path} {trail : Trail}
    (leads : schema.Leads type path middle) (reaches : schema.Reaches middle trail target) :
    schema.Reaches type (path.map Segment.field ++ trail) target := by
  induction path generalizing type with
  | nil =>
      have same : type.unboxed = middle.unboxed := leads
      rwa [List.map_nil, List.nil_append, ← reaches_unboxed, same, reaches_unboxed]
  | cons name path induction =>
      obtain ⟨record, inner, unboxed, known, further⟩ := leads
      exact ⟨record, inner, unboxed, known, induction further⟩

theorem shaped_unboxed (type : Ty) (value : Val) :
    schema.Shaped type.unboxed value ↔ schema.Shaped type value := by
  cases type with
  | boxed inner =>
      rw [Ty.unboxed, shaped_unboxed inner value]
      constructor
      · exact .boxed
      · intro shaped
        cases shaped with
        | replaced replaced => exact .replaced replaced
        | boxed shaped => exact shaped
  | _ => rfl

theorem shaped_boxed {inner : Ty} {value : Val} :
    schema.Shaped (.boxed inner) value ↔ schema.Shaped inner value := by
  rw [← shaped_unboxed, Ty.unboxed, shaped_unboxed]

theorem shaped_found {type target : Ty} {path : Val.Path} {value inner : Val}
    (leads : schema.Leads type path target) (shaped : schema.Shaped type value)
    (found : value.get? path = some inner) : schema.Shaped target inner := by
  induction path generalizing type value with
  | nil =>
      cases found
      rwa [← shaped_unboxed, leads, shaped_unboxed] at shaped
  | cons name path induction =>
      obtain ⟨record, inner, unboxed, known, further⟩ := leads
      rw [← shaped_unboxed, unboxed] at shaped
      cases shaped with
      | replaced replaced => cases replaced
      | @record _ fields shaped =>
          obtain ⟨others, middle, same, present, reached⟩ := Val.get_cons.mp found
          cases same
          exact induction further (shaped name inner known middle present) reached

/-- The shape of a value stays if that of what is overwritten does. -/
theorem shaped_overwrite (distinct : schema.FieldsDistinct) {type target : Ty} {trail : Trail}
    (reaches : schema.Reaches type trail target) {value replacement : Val}
    (shaped : schema.Shaped type value) (fits : schema.Shaped target replacement) :
    schema.Shaped type (value.overwrite trail replacement) := by
  induction trail generalizing type value with
  | nil =>
      have same : type.unboxed = target.unboxed := reaches
      rw [Val.overwrite, ← shaped_unboxed, same, shaped_unboxed]
      exact fits
  | cons segment trail induction =>
      cases segment with
      | field name =>
          obtain ⟨record, inner, unboxed, known, further⟩ := reaches
          rw [← shaped_unboxed, unboxed] at shaped ⊢
          cases shaped with
          | replaced replaced => cases replaced
          | @record _ fields shaped =>
              rw [Val.overwrite, Val.part?]
              cases found : Val.lookup fields name with
              | none => exact .record shaped
              | some part =>
                  have replaced := induction further (shaped name inner known part found)
                  apply Shaped.record
                  intro other type member value present
                  by_cases same : name = other
                  · subst same
                    rw [Val.lookup_update_own found] at present
                    cases present
                    rwa [field_type distinct member known]
                  · rw [Val.lookup_update_other same] at present
                    exact shaped other type member value present
      | index position =>
          obtain ⟨types, inner, unboxed, known, further⟩ := reaches
          rw [← shaped_unboxed, unboxed] at shaped ⊢
          cases shaped with
          | replaced replaced => cases replaced
          | @tuple _ slots size shaped =>
              rw [Val.overwrite, Val.part?]
              cases found : slots[position]? with
              | none => exact .tuple size shaped
              | some part =>
                  have replaced := induction further (shaped position inner part known found)
                  apply Shaped.tuple (by rw [List.length_set, size])
                  intro other type value member present
                  by_cases same : position = other
                  · subst same
                    rw [known] at member
                    cases member
                    obtain ⟨inside, -⟩ := List.getElem?_eq_some_iff.mp found
                    rw [List.getElem?_set_self inside] at present
                    cases present
                    exact replaced
                  · rw [List.getElem?_set_ne same] at present
                    exact shaped other type value member present

theorem shaped_overwrite_all (distinct : schema.FieldsDistinct) {type : Ty}
    {parts : List (Trail × Val)} (replaces : ∀ part ∈ parts, schema.Replaces type part.1)
    {value : Val} (shaped : schema.Shaped type value) :
    schema.Shaped type (value.overwriteAll parts) := by
  induction parts generalizing value with
  | nil => exact shaped
  | cons part parts induction =>
      rw [List.forall_mem_cons] at replaces
      obtain ⟨⟨target, reaches, replaced⟩, others⟩ := replaces
      exact induction others (shaped_overwrite distinct reaches shaped (.replaced replaced))

theorem shaped_set (distinct : schema.FieldsDistinct) {type target : Ty} {path : Val.Path}
    (leads : schema.Leads type path target) {value replacement : Val}
    (shaped : schema.Shaped type value) (fits : schema.Shaped target replacement) :
    schema.Shaped type (value.set path replacement) := by
  rw [Val.set_overwrite]
  have own : schema.Reaches target [] target := rfl
  have reaches := leads_reaches leads own
  rw [List.append_nil] at reaches
  exact shaped_overwrite distinct reaches shaped fits

/-- Every value of a type has its shape. -/
theorem has_type_shaped {type : Ty} {value : Val} (typed : schema.HasType type value) :
    schema.Shaped type value := by
  cases typed with
  | @record name fields names typed =>
      apply Shaped.record
      intro field type known inner found
      have below : inner.depth < (Val.record fields).depth :=
        Nat.lt_succ_of_le (Val.depth_lookup found)
      exact has_type_shaped (typed field type known inner found)
  | @tuple types slots typed =>
      apply Shaped.tuple typed.length_eq.symm
      intro position type inner known found
      have below : inner.depth < (Val.tuple slots).depth :=
        Nat.lt_succ_of_le (Val.depth_item (List.mem_of_getElem? found))
      obtain ⟨inside, rfl⟩ := List.getElem?_eq_some_iff.mp known
      obtain ⟨innerInside, rfl⟩ := List.getElem?_eq_some_iff.mp found
      exact has_type_shaped (typed.get inside innerInside)
  | @boxed inner value typed => exact .boxed (has_type_shaped typed)
  | _ => exact .replaced rfl
termination_by (value.depth, sizeOf type)
decreasing_by
  all_goals subst_vars
  all_goals simp only [Prod.lex_def, Ty.boxed.sizeOf_spec, true_and]
  all_goals omega

end Schema

end Marshal
