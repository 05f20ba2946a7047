import Marshal.Proofs.Value.Restored
import Mathlib.Logic.Relation

/-!
# Values that are restored exactly

A type in which no structure skips a field has nothing that reading could leave alone: two alike
values of it are the same, once no NaN is in them. Map keys are of this kind.
-/

namespace Marshal

namespace Val

theorem equal_items {items : List Val} (equal : equalItems items items = true) :
    ∀ value ∈ items, value.equal value = true := by
  induction items with
  | nil => simp
  | cons value rest induction =>
      simp only [equalItems, Bool.and_eq_true] at equal
      intro other inside
      rcases List.mem_cons.mp inside with rfl | inside
      · exact equal.1
      · exact induction equal.2 other inside

theorem equal_entries {entries : List (Val × Val)} (equal : equalEntries entries entries = true) :
    ∀ entry ∈ entries, entry.2.equal entry.2 = true := by
  induction entries with
  | nil => simp
  | cons entry rest induction =>
      obtain ⟨key, value⟩ := entry
      simp only [equalEntries, Bool.and_eq_true] at equal
      intro other inside
      rcases List.mem_cons.mp inside with rfl | inside
      · exact equal.1.2
      · exact induction equal.2 other inside

theorem equal_lookup {fields : List (String × Val)} (equal : equalFields fields fields = true)
    {name : String} {value : Val} (found : lookup fields name = some value) :
    value.equal value = true := by
  induction fields with
  | nil => simp [lookup] at found
  | cons field rest induction =>
      obtain ⟨known, other⟩ := field
      simp only [equalFields, Bool.and_eq_true] at equal
      rw [lookup_cons] at found
      split_ifs at found
      · cases found
        exact equal.1.2
      · exact induction equal.2 found

/-- What is found inside of a value that is equal to itself is equal to itself. -/
theorem equal_get {value inner : Val} {path : Path} (equal : value.equal value = true)
    (found : value.get? path = some inner) : inner.equal inner = true := by
  induction path generalizing value with
  | nil =>
      obtain rfl : value = inner := by simpa [get?] using found
      exact equal
  | cons name path induction =>
      obtain ⟨fields, middle, rfl, known, further⟩ := get_cons.mp found
      rw [Val.equal] at equal
      exact induction (equal_lookup equal known) further

theorem fields_eq {fields others : List (String × Val)}
    (names : fields.map Prod.fst = others.map Prod.fst) (distinct : (fields.map Prod.fst).Nodup)
    (same : ∀ name ∈ fields.map Prod.fst, lookup fields name = lookup others name) :
    fields = others := by
  induction fields generalizing others with
  | nil => simpa using names.symm
  | cons field rest induction =>
      obtain ⟨name, value⟩ := field
      cases others with
      | nil => simp at names
      | cons other otherRest =>
          obtain ⟨otherName, otherValue⟩ := other
          simp only [List.map_cons, List.cons.injEq, List.nodup_cons] at names distinct
          obtain ⟨rfl, names⟩ := names
          have own := same name List.mem_cons_self
          rw [lookup_cons, lookup_cons, if_pos rfl, if_pos rfl] at own
          cases own
          rw [induction names distinct.2]
          intro wanted inside
          have further := same wanted (List.mem_cons_of_mem _ inside)
          have different : name ≠ wanted := by
            rintro rfl
            exact distinct.1 inside
          rwa [lookup_cons, lookup_cons, if_neg different, if_neg different] at further

end Val

namespace Schema

/-- The types that values of a type are written in parts of. -/
inductive Direct (schema : Schema) : Ty → Ty → Prop
  | content {inner : Ty} : Direct schema (.option inner) inner
  | item {kind : SequenceKind} {item : Ty} : Direct schema (.sequence kind item) item
  | key {kind : MapKind} {key value : Ty} : Direct schema (.map kind key value) key
  | value {kind : MapKind} {key value : Ty} : Direct schema (.map kind key value) value
  | slot {slots : List Ty} {slot : Ty} (inside : slot ∈ slots) : Direct schema (.tuple slots) slot
  | boxed {inner : Ty} : Direct schema (.boxed inner) inner
  | member {name : String} {leaf : Leaf} (inside : leaf ∈ schema.leaves name) :
      Direct schema (.record name) leaf.type

/-- All types that are written as part of a type's values, the type itself included. -/
def Part (schema : Schema) : Ty → Ty → Prop := Relation.ReflTransGen schema.Direct

/-- That nothing of what lies at a path is skipped: there is a member for it, or it is a structure
and the same holds of all its fields. -/
inductive Covered (schema : Schema) (leaves : List Leaf) : Val.Path → Ty → Prop
  | member {leaf : Leaf} {type : Ty} (inside : leaf ∈ leaves) : Covered schema leaves leaf.path type
  | fields {path : Val.Path} {type : Ty} {name : String} (record : type.unboxed = .record name)
      (parts : ∀ field part, (field, part) ∈ (schema.structureInfo name).fields →
        Covered schema leaves (path ++ [field]) part) :
      Covered schema leaves path type

/-- That a structure skips no field. -/
def Complete (schema : Schema) (name : String) : Prop :=
  schema.Covered (schema.leaves name) [] (.record name)

/-- That no structure skips a field wherever a type leads. -/
def NothingSkipped (schema : Schema) (type : Ty) : Prop :=
  ∀ name, schema.Part type (.record name) → schema.Complete name

variable {schema : Schema}

theorem part_unboxed (type : Ty) : schema.Part type type.unboxed := by
  cases type with
  | boxed inner => exact .head .boxed (part_unboxed inner)
  | _ => exact .refl

theorem NothingSkipped.part {type part : Ty} (nothing : schema.NothingSkipped type)
    (inside : schema.Part type part) : schema.NothingSkipped part :=
  fun name further => nothing name (inside.trans further)

/-- What is known of all keys that are no deeper than a bound. -/
def ExactUpTo (schema : Schema) (bound : Nat) : Prop :=
  ∀ type value other, value.depth ≤ bound → schema.HasType type value →
    schema.HasType type other → schema.Alike type value other → value.equal value = true →
      schema.NothingSkipped type → other = value

/-- Where nothing is skipped, alike records agree at every covered path. -/
theorem covered_exact (sound : schema.Sound) {bound : Nat} (smaller : schema.ExactUpTo bound)
    {name : String} {value other : Val} (typed : schema.HasType (.record name) value)
    (otherTyped : schema.HasType (.record name) other) (shallow : value.depth ≤ bound + 1)
    (alike : schema.Alike (.record name) value other) (equal : value.equal value = true)
    (nothing : schema.NothingSkipped (.record name)) {path : Val.Path} {type : Ty}
    (covered : schema.Covered (schema.leaves name) path type)
    (leads : schema.Leads (.record name) path type) : other.get? path = value.get? path := by
  induction covered with
  | member inside =>
      obtain ⟨-, leafLeads⟩ := leaf_leads sound inside
      obtain ⟨inner, otherInner, found, otherFound, innerAlike⟩ :=
        (alike_record sound typed).mp alike _ inside
      have innerTyped := leads_found leafLeads typed found
      have otherInnerTyped := leads_found leafLeads otherTyped otherFound
      have below := leaf_below sound inside found
      rw [found, otherFound, smaller _ _ _ (by omega) innerTyped otherInnerTyped innerAlike
        (Val.equal_get equal found) (nothing.part (.single (.member inside)))]
  | @fields path type inner record parts step =>
      obtain ⟨middle, found, middleTyped⟩ := leads_get leads typed
      obtain ⟨otherMiddle, otherFound, otherMiddleTyped⟩ := leads_get leads otherTyped
      rw [← has_type_unboxed, record] at middleTyped otherMiddleTyped
      obtain ⟨fields, rfl⟩ := typed_record middleTyped
      obtain ⟨otherFields, rfl⟩ := typed_record otherMiddleTyped
      rcases middleTyped with _ | _ | _ | _ | _ | _ | _ | ⟨names, -⟩
      rcases otherMiddleTyped with _ | _ | _ | _ | _ | _ | _ | ⟨otherNames, -⟩
      have distinct := sound.distinct inner
      rw [← otherNames] at distinct
      refine (otherFound.trans (congrArg some (congrArg Val.record ?_))).trans found.symm
      apply Val.fields_eq (otherNames.trans names.symm) distinct
      intro wanted inside
      rw [otherNames] at inside
      obtain ⟨⟨field, part⟩, known, rfl⟩ := List.mem_map.mp inside
      have further : schema.Leads (.record name) (path ++ [field]) part :=
        leads_append (leads_to_unboxed record leads) ⟨inner, part, rfl, known, rfl⟩
      have same := step field part known further
      rw [Val.get_append, Val.get_append, found, otherFound] at same
      simpa [Val.get?] using same

section Containers

variable {bound : Nat} (smaller : schema.ExactUpTo bound)

include smaller

theorem alike_items_exact {item : Ty} {values others : List Val}
    (shallow : Val.depthItems values ≤ bound) (typed : ∀ value ∈ values, schema.HasType item value)
    (othersTyped : ∀ other ∈ others, schema.HasType item other)
    (equal : ∀ value ∈ values, value.equal value = true) (nothing : schema.NothingSkipped item)
    (items : schema.AlikeItems item values others) : others = values := by
  induction values generalizing others with
  | nil =>
      cases items
      rfl
  | cons value rest induction =>
      rw [Val.depthItems] at shallow
      rcases items with _ | ⟨first, further⟩
      simp only [List.forall_mem_cons] at typed othersTyped equal
      rw [smaller _ _ _ (by omega) typed.1 othersTyped.1 first equal.1 nothing,
        induction (by omega) typed.2 othersTyped.2 equal.2 further]

theorem alike_entries_exact {type : Ty} {entries others : List (Val × Val)}
    (shallow : Val.depthEntries entries ≤ bound)
    (typed : ∀ entry ∈ entries, schema.HasType type entry.2)
    (othersTyped : ∀ other ∈ others, schema.HasType type other.2)
    (equal : ∀ entry ∈ entries, entry.2.equal entry.2 = true)
    (nothing : schema.NothingSkipped type) (values : schema.AlikeEntries type entries others) :
    others = entries := by
  induction entries generalizing others with
  | nil =>
      cases values
      rfl
  | cons entry rest induction =>
      obtain ⟨key, value⟩ := entry
      rw [Val.depthEntries] at shallow
      rcases values with _ | ⟨first, further⟩
      simp only [List.forall_mem_cons] at typed othersTyped equal
      rw [smaller _ _ _ (by omega) typed.1 othersTyped.1 first equal.1 nothing,
        induction (by omega) typed.2 othersTyped.2 equal.2 further]

theorem alike_slots_exact {types : List Ty} {values others : List Val}
    (shallow : Val.depthItems values ≤ bound) (typed : List.Forall₂ schema.HasType types values)
    (othersTyped : List.Forall₂ schema.HasType types others)
    (equal : ∀ value ∈ values, value.equal value = true)
    (nothing : ∀ type ∈ types, schema.NothingSkipped type)
    (slots : schema.AlikeSlots types values others) : others = values := by
  induction types generalizing values others with
  | nil =>
      cases slots
      rfl
  | cons type rest induction =>
      rcases slots with _ | ⟨first, further⟩
      rw [Val.depthItems] at shallow
      rw [List.forall₂_cons] at typed othersTyped
      simp only [List.forall_mem_cons] at equal nothing
      rw [smaller _ _ _ (by omega) typed.1 othersTyped.1 first equal.1 nothing.1,
        induction (by omega) typed.2 othersTyped.2 equal.2 nothing.2 further]

end Containers

theorem exact_up_to (sound : schema.Sound) (bound : Nat) : schema.ExactUpTo bound := by
  induction bound with
  | zero =>
      intro type value other shallow
      have := value.depth_positive
      omega
  | succ bound smaller =>
      intro type value other shallow typed otherTyped alike equal nothing
      have nothing := nothing.part (part_unboxed type)
      rw [← has_type_unboxed] at typed otherTyped
      rw [← alike_unboxed] at alike
      generalize unboxed : type.unboxed = bare at typed otherTyped alike nothing
      cases alike with
      | plain plain => rfl
      | single same =>
          rcases same with rfl | ⟨nan, -⟩
          · rfl
          · rw [Val.equal, Number.Single.equal, nan] at equal
            simp at equal
      | record present members =>
          have agree := covered_exact sound smaller typed otherTyped shallow
            (.record present members) equal nothing (nothing _ .refl) rfl
          simpa [Val.get?] using agree
      | absent => rfl
      | present content =>
          rcases typed with _ | _ | _ | _ | _ | _ | _ | _ | _ | typed
          rcases otherTyped with _ | _ | _ | _ | _ | _ | _ | _ | _ | otherTyped
          rw [Val.depth] at shallow
          rw [Val.equal] at equal
          rw [smaller _ _ _ (by omega) typed otherTyped content equal
            (nothing.part (.single .content))]
      | sequence items =>
          cases typed with
          | sequence typed =>
              cases otherTyped with
              | sequence otherTyped =>
                  rw [Val.depth] at shallow
                  rw [Val.equal] at equal
                  rw [alike_items_exact smaller (by omega) typed otherTyped (Val.equal_items equal)
                    (nothing.part (.single .item)) items]
      | map values =>
          cases typed with
          | map _ _ typed _ =>
              cases otherTyped with
              | map _ _ otherTyped _ =>
                  rw [Val.depth] at shallow
                  rw [Val.equal] at equal
                  rw [alike_entries_exact smaller (by omega) typed otherTyped
                    (Val.equal_entries equal) (nothing.part (.single .value)) values]
      | tuple slots =>
          cases typed with
          | tuple typed =>
              cases otherTyped with
              | tuple otherTyped =>
                  rw [Val.depth] at shallow
                  rw [Val.equal] at equal
                  rw [alike_slots_exact smaller (by omega) typed otherTyped (Val.equal_items equal)
                    (fun slot inside => nothing.part (.single (.slot inside))) slots]
      | boxed content => exact absurd unboxed (Ty.unboxed_ne_boxed _ _)

/-- Where nothing is skipped, what is restored is the value that was written. -/
theorem restores_exact (sound : schema.Sound) {type : Ty} {value target result : Val}
    (typed : schema.HasType type value) (targetTyped : schema.HasType type target)
    (equal : value.equal value = true) (nothing : schema.NothingSkipped type)
    (restores : schema.Restores type value target result) : result = value :=
  exact_up_to sound value.depth type value result le_rfl typed
    (restores_typed sound typed targetTyped restores) (restores_alike sound typed restores) equal
    nothing

end Schema

end Marshal
