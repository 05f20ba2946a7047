import Marshal.Proofs.Value.Restoring

/-!
# What is restored is alike to what was written

Restoring a member changes nothing that another member has in common with the written value: their
places are apart, or one lies inside the other and is restored from the same written value. So
after the last member all of them are alike. The result has the type of the target, and a value
in which nothing is skipped is restored as it was.
-/

namespace Marshal

theorem Ty.unboxed_ne_boxed (type inner : Ty) : type.unboxed ≠ .boxed inner := by
  cases type with
  | boxed content =>
      rw [Ty.unboxed]
      exact unboxed_ne_boxed content inner
  | _ => simp [Ty.unboxed]

namespace Schema

variable {schema : Schema}

theorem leads_to_unboxed {type target : Ty} {name : String} {path : Val.Path}
    (record : target.unboxed = .record name) (leads : schema.Leads type path target) :
    schema.Leads type path (.record name) := by
  induction path generalizing type with
  | nil => exact leads.trans record
  | cons field rest induction =>
      obtain ⟨owner, inner, unboxed, known, further⟩ := leads
      exact ⟨owner, inner, unboxed, known, induction further⟩

theorem leads_split {type target : Ty} {path rest : Val.Path}
    (leads : schema.Leads type (path ++ rest) target) :
    ∃ middle, schema.Leads type path middle ∧ schema.Leads middle rest target := by
  induction path generalizing type with
  | nil => exact ⟨type, rfl, leads⟩
  | cons field path induction =>
      obtain ⟨name, inner, unboxed, known, further⟩ := leads
      obtain ⟨middle, reached, remaining⟩ := induction further
      exact ⟨middle, ⟨name, inner, unboxed, known, reached⟩, remaining⟩

theorem leads_unique (distinct : schema.FieldsDistinct) {type left right : Ty} {path : Val.Path}
    (leadsLeft : schema.Leads type path left) (leadsRight : schema.Leads type path right) :
    left.unboxed = right.unboxed := by
  induction path generalizing type with
  | nil => exact leadsLeft.symm.trans leadsRight
  | cons field path induction =>
      obtain ⟨name, inner, unboxed, known, further⟩ := leadsLeft
      obtain ⟨otherName, otherInner, otherUnboxed, otherKnown, otherFurther⟩ := leadsRight
      rw [unboxed] at otherUnboxed
      cases otherUnboxed
      have same := List.inj_on_of_nodup_map (distinct name) known otherKnown rfl
      cases same
      exact induction further otherFurther

/-- A path that goes on from a place finds a record there. -/
theorem leads_through (distinct : schema.FieldsDistinct) {type middle target : Ty}
    {path : Val.Path} {field : String} {rest : Val.Path}
    (leads : schema.Leads type path middle)
    (through : schema.Leads type (path ++ field :: rest) target) :
    ∃ name, middle.unboxed = .record name ∧
      schema.Leads (.record name) (field :: rest) target := by
  obtain ⟨other, reached, remaining⟩ := leads_split through
  have same := leads_unique distinct reached leads
  obtain ⟨name, inner, unboxed, known, further⟩ := remaining
  exact ⟨name, same.symm.trans unboxed, name, inner, rfl, known, further⟩

/-- That two values are alike at a path. -/
def AlikeAt (schema : Schema) (value other : Val) (path : Val.Path) (type : Ty) : Prop :=
  ∃ inner otherInner, value.get? path = some inner ∧ other.get? path = some otherInner ∧
    schema.Alike type inner otherInner

theorem alike_record (sound : schema.Sound) {name : String} {value other : Val}
    (typed : schema.HasType (.record name) value) :
    schema.Alike (.record name) value other ↔
      ∀ leaf ∈ schema.leaves name, schema.AlikeAt value other leaf.path leaf.type := by
  constructor
  · rintro (plain | _ | ⟨present, members⟩) leaf inside
    · cases plain
    · obtain ⟨inner, found, -⟩ := leads_get (leaf_leads sound inside).2 typed
      obtain ⟨otherInner, otherFound⟩ := Option.ne_none_iff_exists'.mp (present leaf inside)
      exact ⟨inner, otherInner, found, otherFound,
        members leaf inside inner otherInner found otherFound⟩
  · intro alike
    refine .record (fun leaf inside => ?_) fun leaf inside inner otherInner found otherFound => ?_
    · obtain ⟨_, _, -, found, -⟩ := alike leaf inside
      simp [found]
    · obtain ⟨_, _, known, otherKnown, members⟩ := alike leaf inside
      rw [found] at known
      rw [otherFound] at otherKnown
      cases known
      cases otherKnown
      exact members

/-- What is known of all values that are no deeper than a bound. -/
def AlikeUpTo (schema : Schema) (bound : Nat) : Prop :=
  ∀ type value target result, value.depth ≤ bound → schema.HasType type value →
    schema.Restores type value target result → schema.Alike type value result

/-- What every member preserves is preserved by all of them together. -/
theorem restores_leaves_preserve {value : Val} (holds : Val → Prop) {leaves : List Leaf}
    (step : ∀ leaf ∈ leaves, ∀ target inner old new, value.get? leaf.path = some inner →
      target.get? leaf.path = some old → schema.Restores leaf.type inner old new →
        holds target → holds (target.set leaf.path new))
    {target result : Val} (members : schema.RestoresLeaves value leaves target result)
    (start : holds target) : holds result := by
  induction leaves generalizing target with
  | nil =>
      cases members
      exact start
  | cons leaf rest induction =>
      rcases members with _ | ⟨written, found, member, others⟩
      apply induction (fun other inside => step other (List.mem_cons_of_mem _ inside)) others
      exact step leaf List.mem_cons_self _ _ _ _ written found member start

/-- That what was written at a place is restored over what another value has there. -/
structure Change (schema : Schema) (root : Ty) (value other : Val) (place : Val.Path) (type : Ty)
    (inner old new : Val) : Prop where
  leads : schema.Leads root place type
  written : value.get? place = some inner
  replaced : other.get? place = some old
  restores : schema.Restores type inner old new

/-- What is known of all changes at places that are, together with the place that is looked at, no
deeper than a size: what was alike is kept alike. -/
def KeptUpTo (schema : Schema) (bound size : Nat) : Prop :=
  ∀ root value other place changed changedInner old new path type inner,
    schema.HasType root value → schema.Change root value other place changed changedInner old new →
      schema.Leads root path type → value.get? path = some inner → changedInner.depth ≤ bound →
        inner.depth + changedInner.depth ≤ size → schema.AlikeAt value other path type →
          schema.AlikeAt value (other.set place new) path type

section Kept

variable {bound : Nat} {root type changed : Ty} {value other inner changedInner old new : Val}
variable {path place : Val.Path}

/-- A value that is restored at its own place is alike there. -/
theorem alike_own (sound : schema.Sound) (smaller : schema.AlikeUpTo bound)
    (typed : schema.HasType root value)
    (change : schema.Change root value other path changed inner old new)
    (leads : schema.Leads root path type) (shallow : inner.depth ≤ bound) :
    schema.AlikeAt value (other.set path new) path type := by
  have innerTyped := leads_found change.leads typed change.written
  have own := leads_unique sound.distinct leads change.leads
  refine ⟨inner, new, change.written, Val.get_set_own change.replaced new, ?_⟩
  rw [← alike_unboxed, own, alike_unboxed]
  exact smaller _ _ _ _ shallow innerTyped change.restores

/-- The place that changes is a record around the other place, and restored member by member. -/
theorem kept_around (sound : schema.Sound) {size : Nat} (kept : schema.KeptUpTo bound size)
    (typed : schema.HasType root value)
    (change : schema.Change root value other place changed changedInner old new) {field : String}
    {rest : Val.Path} (leads : schema.Leads root (place ++ field :: rest) type)
    (found : value.get? (place ++ field :: rest) = some inner)
    (shallow : changedInner.depth ≤ bound) (sized : inner.depth + changedInner.depth ≤ size + 1)
    (alike : schema.AlikeAt value other (place ++ field :: rest) type) :
    schema.AlikeAt value (other.set place new) (place ++ field :: rest) type := by
  obtain ⟨_, otherInner, known, otherFound, same⟩ := alike
  rw [found] at known
  cases known
  obtain ⟨changedLeads, written, replaced, restores⟩ := change
  obtain ⟨name, record, further⟩ := leads_through sound.distinct changedLeads leads
  have changedTyped := leads_found changedLeads typed written
  rw [← restores_unboxed, record] at restores
  rw [← has_type_unboxed, record] at changedTyped
  rw [Val.get_append, written] at found
  rw [Val.get_append, replaced] at otherFound
  have found : changedInner.get? (field :: rest) = some inner := found
  rcases restores with plain | _ | members
  · cases plain
  have start : schema.AlikeAt changedInner old (field :: rest) type :=
    ⟨inner, otherInner, found, otherFound, same⟩
  obtain ⟨_, last, lastKnown, lastFound, lastAlike⟩ := restores_leaves_preserve
    (fun other => schema.AlikeAt changedInner other (field :: rest) type)
    (fun leaf inside target leafInner leafOld leafNew leafWritten leafFound member before => by
      obtain ⟨-, leafLeads⟩ := leaf_leads sound inside
      have below := leaf_below sound inside leafWritten
      exact kept _ _ _ _ _ _ _ _ _ _ _ changedTyped ⟨leafLeads, leafWritten, leafFound, member⟩
        further found (by omega) (by omega) before)
    members start
  rw [found] at lastKnown
  cases lastKnown
  refine ⟨inner, last, ?_, by rw [Val.get_set_below replaced, lastFound], lastAlike⟩
  rw [Val.get_append, written]
  exact found

/-- The place that changes lies inside of the other one, which is a record and alike member by
member. -/
theorem kept_within (sound : schema.Sound) {size : Nat} (kept : schema.KeptUpTo bound size)
    (typed : schema.HasType root value) {field : String} {rest : Val.Path}
    (change : schema.Change root value other (path ++ field :: rest) changed changedInner old new)
    (leads : schema.Leads root path type) (found : value.get? path = some inner)
    (shallow : changedInner.depth ≤ bound) (sized : inner.depth + changedInner.depth ≤ size + 1)
    (alike : schema.AlikeAt value other path type) :
    schema.AlikeAt value (other.set (path ++ field :: rest) new) path type := by
  obtain ⟨_, otherInner, known, otherFound, same⟩ := alike
  rw [found] at known
  cases known
  obtain ⟨changedLeads, written, replaced, restores⟩ := change
  obtain ⟨name, record, further⟩ := leads_through sound.distinct leads changedLeads
  have innerTyped := leads_found leads typed found
  rw [← has_type_unboxed, record] at innerTyped
  rw [← alike_unboxed, record, alike_record sound innerTyped] at same
  rw [Val.get_append, found] at written
  rw [Val.get_append, otherFound] at replaced
  refine ⟨inner, otherInner.set (field :: rest) new, found, Val.get_set_above otherFound _ _, ?_⟩
  rw [← alike_unboxed, record, alike_record sound innerTyped]
  intro leaf inside
  obtain ⟨-, leafLeads⟩ := leaf_leads sound inside
  obtain ⟨leafInner, leafFound, -⟩ := leads_get leafLeads innerTyped
  have below := leaf_below sound inside leafFound
  exact kept _ _ _ _ _ _ _ _ _ _ _ innerTyped ⟨further, written, replaced, restores⟩ leafLeads
    leafFound shallow (by omega) (same leaf inside)

end Kept

/-- Restoring at one place keeps alike what is alike at another. The induction is on how deep the
two places are together: if one lies inside the other, the outer one is a record, and each of its
members stands in its place. -/
theorem alike_kept (sound : schema.Sound) {bound : Nat} (smaller : schema.AlikeUpTo bound)
    (size : Nat) : schema.KeptUpTo bound size := by
  induction size with
  | zero =>
      intro root value other place changed changedInner old new path type inner _ _ _ _ _ sized
      have := inner.depth_positive
      omega
  | succ size kept =>
      intro root value other place changed changedInner old new path type inner typed change leads
        found shallow sized alike
      rcases Val.apart_or_nested place path with apart | ⟨rest, rfl⟩ | ⟨rest, rfl⟩
      · obtain ⟨inner, otherInner, found, otherFound, same⟩ := alike
        exact ⟨inner, otherInner, found, by rw [Val.get_set_apart apart, otherFound], same⟩
      · cases rest with
        | nil =>
            rw [List.append_nil] at leads ⊢
            exact alike_own sound smaller typed change leads shallow
        | cons field rest => exact kept_around sound kept typed change leads found shallow sized alike
      · cases rest with
        | nil =>
            rw [List.append_nil] at change ⊢
            exact alike_own sound smaller typed change leads shallow
        | cons field rest => exact kept_within sound kept typed change leads found shallow sized alike

/-- After all members each of them is alike: the one that is restored last of two keeps the
other. -/
theorem restores_leaves_alike (sound : schema.Sound) {bound : Nat}
    (smaller : schema.AlikeUpTo bound) {name : String} {value : Val}
    (typed : schema.HasType (.record name) value) (shallow : value.depth ≤ bound + 1)
    {leaves : List Leaf} (declared : ∀ leaf ∈ leaves, leaf ∈ schema.leaves name)
    {target result : Val} (members : schema.RestoresLeaves value leaves target result) :
    ∀ leaf ∈ leaves, schema.AlikeAt value result leaf.path leaf.type := by
  induction leaves generalizing target with
  | nil => simp
  | cons first rest induction =>
      rcases members with _ | ⟨written, found, member, others⟩
      have inRest : ∀ leaf ∈ rest, leaf ∈ schema.leaves name :=
        fun leaf inside => declared leaf (List.mem_cons_of_mem _ inside)
      intro leaf inside
      rcases List.mem_cons.mp inside with rfl | inside
      · have own := declared leaf List.mem_cons_self
        obtain ⟨-, leads⟩ := leaf_leads sound own
        have below := leaf_below sound own written
        have start := alike_own sound smaller typed ⟨leads, written, found, member⟩ leads (by omega)
        apply restores_leaves_preserve
          (fun other => schema.AlikeAt value other leaf.path leaf.type) _ others start
        intro other otherInside target inner old new otherWritten otherFound restores kept
        obtain ⟨-, otherLeads⟩ := leaf_leads sound (inRest other otherInside)
        have otherBelow := leaf_below sound (inRest other otherInside) otherWritten
        exact alike_kept sound smaller _ _ _ _ _ _ _ _ _ _ _ _ typed
          ⟨otherLeads, otherWritten, otherFound, restores⟩ leads written (by omega) le_rfl kept
      · exact induction inRest others leaf inside

section Containers

variable {bound : Nat} (smaller : schema.AlikeUpTo bound)

include smaller

theorem restores_items_alike {item : Ty} {values results : List Val}
    (shallow : Val.depthItems values ≤ bound)
    (typed : ∀ value ∈ values, schema.HasType item value)
    (items : schema.RestoresItems item values results) : schema.AlikeItems item values results := by
  induction values generalizing results with
  | nil =>
      cases items
      exact .nil
  | cons value rest induction =>
      rw [Val.depthItems] at shallow
      rcases items with _ | ⟨first, others⟩
      exact .cons (smaller _ _ _ _ (by omega) (typed value List.mem_cons_self) first)
        (induction (by omega) (fun other inside => typed other (List.mem_cons_of_mem _ inside)) others)

theorem restores_entries_alike {type : Ty} {entries results : List (Val × Val)}
    (shallow : Val.depthEntries entries ≤ bound)
    (typed : ∀ entry ∈ entries, schema.HasType type entry.2)
    (values : schema.RestoresEntries type entries results) :
    schema.AlikeEntries type entries results := by
  induction entries generalizing results with
  | nil =>
      cases values
      exact .nil
  | cons entry rest induction =>
      rcases values with _ | ⟨first, others⟩
      rw [Val.depthEntries] at shallow
      exact .cons (smaller _ _ _ _ (by omega) (typed _ List.mem_cons_self) first)
        (induction (by omega) (fun other inside => typed other (List.mem_cons_of_mem _ inside)) others)

theorem restores_slots_alike {types : List Ty} {values targets results : List Val}
    (shallow : Val.depthItems values ≤ bound)
    (typed : List.Forall₂ schema.HasType types values)
    (slots : schema.RestoresSlots types values targets results) :
    schema.AlikeSlots types values results := by
  induction types generalizing values targets results with
  | nil =>
      cases slots
      exact .nil
  | cons type rest induction =>
      rcases slots with _ | ⟨first, others⟩
      rcases typed with _ | ⟨firstTyped, othersTyped⟩
      rw [Val.depthItems] at shallow
      exact .cons (smaller _ _ _ _ (by omega) firstTyped first)
        (induction (by omega) othersTyped others)

end Containers

theorem alike_up_to (sound : schema.Sound) (bound : Nat) : schema.AlikeUpTo bound := by
  induction bound with
  | zero =>
      intro type value target result shallow
      have := value.depth_positive
      omega
  | succ bound smaller =>
      intro type value target result shallow typed restores
      rw [← alike_unboxed]
      rw [← restores_unboxed] at restores
      rw [← has_type_unboxed] at typed
      generalize unboxed : type.unboxed = bare at restores typed
      cases restores with
      | plain plain => exact .plain plain
      | single same => exact .single same
      | record members =>
          rw [alike_record sound typed]
          exact restores_leaves_alike sound smaller typed shallow (fun _ inside => inside) members
      | absent => exact .absent
      | present content =>
          rcases typed with _ | _ | _ | _ | _ | _ | _ | _ | _ | typed
          rw [Val.depth] at shallow
          exact .present (smaller _ _ _ _ (by omega) typed content)
      | sequence items =>
          cases typed with
          | sequence typed =>
              rw [Val.depth] at shallow
              exact .sequence (restores_items_alike smaller (by omega) typed items)
      | map values =>
          cases typed with
          | map keys comparable typed sorted =>
              rw [Val.depth] at shallow
              exact .map (restores_entries_alike smaller (by omega) typed values)
      | tuple slots =>
          cases typed with
          | tuple typed =>
              rw [Val.depth] at shallow
              exact .tuple (restores_slots_alike smaller (by omega) typed slots)
      | boxed content => exact absurd unboxed (Ty.unboxed_ne_boxed _ _)

/-- What is restored is alike to what was written. -/
theorem restores_alike (sound : schema.Sound) {type : Ty} {value target result : Val}
    (typed : schema.HasType type value) (restores : schema.Restores type value target result) :
    schema.Alike type value result :=
  alike_up_to sound value.depth type value target result le_rfl typed restores

/-- What is known of the types of all values that are no deeper than a bound. -/
def TypedUpTo (schema : Schema) (bound : Nat) : Prop :=
  ∀ type value target result, value.depth ≤ bound → schema.HasType type value →
    schema.HasType type target → schema.Restores type value target result →
      schema.HasType type result

section Containers

variable (sound : schema.Sound) {bound : Nat} (smaller : schema.TypedUpTo bound)

include sound smaller

theorem restores_items_typed {item : Ty} {values results : List Val}
    (shallow : Val.depthItems values ≤ bound)
    (typed : ∀ value ∈ values, schema.HasType item value)
    (items : schema.RestoresItems item values results) :
    ∀ result ∈ results, schema.HasType item result := by
  induction values generalizing results with
  | nil =>
      cases items
      simp
  | cons value rest induction =>
      rw [Val.depthItems] at shallow
      rcases items with _ | ⟨first, others⟩
      intro result inside
      rcases List.mem_cons.mp inside with rfl | inside
      · exact smaller _ _ _ _ (by omega) (typed value List.mem_cons_self)
          (default_typed sound item) first
      · exact induction (by omega) (fun other inside => typed other (List.mem_cons_of_mem _ inside))
          others result inside

theorem restores_entries_typed {type : Ty} {entries results : List (Val × Val)}
    (shallow : Val.depthEntries entries ≤ bound)
    (typed : ∀ entry ∈ entries, schema.HasType type entry.2)
    (values : schema.RestoresEntries type entries results) :
    ∀ result ∈ results, schema.HasType type result.2 := by
  induction entries generalizing results with
  | nil =>
      cases values
      simp
  | cons entry rest induction =>
      obtain ⟨key, value⟩ := entry
      rcases values with _ | ⟨first, others⟩
      rw [Val.depthEntries] at shallow
      intro result inside
      rcases List.mem_cons.mp inside with rfl | inside
      · exact smaller type value _ _ (by omega) (typed _ List.mem_cons_self)
          (default_typed sound type) first
      · exact induction (by omega) (fun other inside => typed other (List.mem_cons_of_mem _ inside))
          others result inside

end Containers

theorem restores_slots_typed {bound : Nat} (smaller : schema.TypedUpTo bound) {types : List Ty}
    {values targets results : List Val}
    (shallow : Val.depthItems values ≤ bound)
    (typed : List.Forall₂ schema.HasType types values)
    (targetsTyped : List.Forall₂ schema.HasType types targets)
    (slots : schema.RestoresSlots types values targets results) :
    List.Forall₂ schema.HasType types results := by
  induction types generalizing values targets results with
  | nil =>
      cases slots
      exact .nil
  | cons type rest induction =>
      rcases slots with _ | ⟨first, others⟩
      rcases typed with _ | ⟨firstTyped, othersTyped⟩
      rcases targetsTyped with _ | ⟨firstTarget, otherTargets⟩
      rw [Val.depthItems] at shallow
      exact .cons (smaller _ _ _ _ (by omega) firstTyped firstTarget first)
        (induction (by omega) othersTyped otherTargets others)

theorem restores_entries_keys {type : Ty} {entries results : List (Val × Val)}
    (values : schema.RestoresEntries type entries results) :
    results.map Prod.fst = entries.map Prod.fst := by
  induction entries generalizing results with
  | nil =>
      cases values
      rfl
  | cons entry rest induction =>
      rcases values with _ | ⟨first, others⟩
      rw [List.map_cons, List.map_cons, induction others]

theorem typed_up_to (sound : schema.Sound) (bound : Nat) : schema.TypedUpTo bound := by
  induction bound with
  | zero =>
      intro type value target result shallow
      have := value.depth_positive
      omega
  | succ bound smaller =>
      intro type value target result shallow typed targetTyped restores
      rw [← has_type_unboxed]
      rw [← restores_unboxed] at restores
      rw [← has_type_unboxed] at typed targetTyped
      generalize unboxed : type.unboxed = bare at restores typed targetTyped
      cases restores with
      | plain plain => exact typed
      | single same => exact .single _
      | record members =>
          apply restores_leaves_preserve (fun other => schema.HasType (.record _) other) _ members
            targetTyped
          intro leaf inside target inner old new written found member kept
          obtain ⟨-, leads⟩ := leaf_leads sound inside
          have innerTyped := leads_found leads typed written
          have oldTyped := leads_found leads kept found
          have below := leaf_below sound inside written
          exact leads_set sound.distinct leads kept
            (smaller _ _ _ _ (by omega) innerTyped oldTyped member)
      | absent => exact .absent
      | present content =>
          rcases typed with _ | _ | _ | _ | _ | _ | _ | _ | _ | typed
          rw [Val.depth] at shallow
          exact .present (smaller _ _ _ _ (by omega) typed (default_typed sound _) content)
      | sequence items =>
          cases typed with
          | sequence typed =>
              rw [Val.depth] at shallow
              exact .sequence (restores_items_typed sound smaller (by omega) typed items)
      | map values =>
          cases typed with
          | map keys comparable typed sorted =>
              rw [Val.depth] at shallow
              have same := restores_entries_keys values
              refine .map (fun result inside => ?_) (fun result inside => ?_)
                (restores_entries_typed sound smaller (by omega) typed values) ?_
              · obtain ⟨entry, known, key⟩ := List.mem_map.mp
                  (same ▸ List.mem_map_of_mem (f := Prod.fst) inside)
                exact key ▸ keys entry known
              · obtain ⟨entry, known, key⟩ := List.mem_map.mp
                  (same ▸ List.mem_map_of_mem (f := Prod.fst) inside)
                exact key ▸ comparable entry known
              · rw [← List.pairwise_map (f := Prod.fst)
                  (R := fun earlier later => Val.order later earlier = .gt)] at sorted ⊢
                rwa [same]
      | tuple slots =>
          cases typed with
          | tuple typed =>
              cases targetTyped with
              | tuple targetsTyped =>
                  rw [Val.depth] at shallow
                  exact .tuple
                    (restores_slots_typed smaller (by omega) typed targetsTyped slots)
      | boxed content => exact absurd unboxed (Ty.unboxed_ne_boxed _ _)

/-- What is restored has the type of the target. -/
theorem restores_typed (sound : schema.Sound) {type : Ty} {value target result : Val}
    (typed : schema.HasType type value) (targetTyped : schema.HasType type target)
    (restores : schema.Restores type value target result) : schema.HasType type result :=
  typed_up_to sound value.depth type value target result le_rfl typed targetTyped restores

end Schema

end Marshal
