import Marshal.Proofs.Reading.Interrupted

/-!
# Readings that concur

Two readings concur where both fail, or both succeed and make the same. Which fault it is and what is
left after it may differ, as one of them may come to it earlier. Steps, elements and entries that
concur one by one concur as a whole; for entries, which are put in the order of their keys, neither
their order in a document matters.
-/

namespace Marshal

/-- That both fail, or both succeed with the same result. -/
structure Concur {Target : Type} (left right : Except Fault Unit × Target) : Prop where
  succeed : left.1 = .ok () ↔ right.1 = .ok ()
  same : left.1 = .ok () → left.2 = right.2

namespace Concur

variable {Target : Type} {left right further : Except Fault Unit × Target}

theorem refl (made : Except Fault Unit × Target) : Concur made made := ⟨.rfl, fun _ => rfl⟩

theorem of_eq (equal : left = right) : Concur left right := equal ▸ refl left

theorem symm (concur : Concur left right) : Concur right left :=
  ⟨concur.succeed.symm, fun ok => (concur.same (concur.succeed.mpr ok)).symm⟩

theorem trans (concur : Concur left right) (next : Concur right further) : Concur left further :=
  ⟨concur.succeed.trans next.succeed,
    fun ok => (concur.same ok).trans (next.same (concur.succeed.mp ok))⟩

theorem failed {first second : Fault} (leftFailed : left.1 = .error first)
    (rightFailed : right.1 = .error second) : Concur left right := by
  constructor
  · simp [leftFailed, rightFailed]
  · simp [leftFailed]

theorem either (concur : Concur left right) :
    (∃ result, left = (.ok (), result) ∧ right = (.ok (), result)) ∨
      ∃ first second, left.1 = .error first ∧ right.1 = .error second := by
  rcases left with ⟨_ | _, result⟩
  · rcases right with ⟨_ | _, other⟩
    · exact .inr ⟨_, _, rfl, rfl⟩
    · exact absurd (concur.succeed.mpr rfl) (by simp)
  · obtain rfl : result = right.2 := concur.same rfl
    exact .inl ⟨_, rfl, Prod.ext (concur.succeed.mp rfl) rfl⟩

/-- Locating faults makes no difference, nor does what is made of the results alike. -/
theorem map {Other : Type} (concur : Concur left right) (first second : Fault → Fault)
    (make : Target → Other) :
    Concur (left.1.mapError first, make left.2) (right.1.mapError second, make right.2) := by
  rcases concur.either with ⟨result, rfl, rfl⟩ | ⟨fault, other, leftFailed, rightFailed⟩
  · exact refl _
  · exact failed (congrArg (Except.mapError first) leftFailed)
      (congrArg (Except.mapError second) rightFailed)

theorem made {Left Right Other : Type} {first : Reading Other Left} {second : Reading Other Right}
    (concur : Concur first.made second.made) (make : Other → Target) :
    Concur (first.outcome, make first.target) (second.outcome, make second.target) :=
  ⟨concur.succeed, fun ok => congrArg make (concur.same ok)⟩

end Concur

namespace Step

variable {State : Type}

theorem and_then_concur {left right leftNext rightNext : Step State} {state : State}
    (first : Concur (left state) (right state))
    (next : ∀ result, left state = (.ok (), result) → Concur (leftNext result) (rightNext result)) :
    Concur (left.andThen leftNext state) (right.andThen rightNext state) := by
  rw [andThen, andThen]
  rcases first.either with ⟨result, done, other⟩ | ⟨fault, other, failed, otherFailed⟩
  · rw [done, other]
    exact next result done
  · rcases run : left state with ⟨_ | _, leftResult⟩
    · rcases otherRun : right state with ⟨_ | _, rightResult⟩
      · exact .failed rfl rfl
      · rw [otherRun] at otherFailed
        cases otherFailed
    · rw [run] at failed
      cases failed

/-- Each step finds what the ones before it have left to be of the same kind. -/
theorem all_concur {Item : Type} {items : List Item} {left right : Item → Step State}
    (fits : State → Prop)
    (each : ∀ item ∈ items, ∀ state, fits state → Concur (left item state) (right item state))
    (keeps : ∀ item ∈ items, ∀ state result, fits state → left item state = (.ok (), result) →
      fits result)
    {state : State} (fit : fits state) :
    Concur (all (items.map left) state) (all (items.map right) state) := by
  induction items generalizing state with
  | nil => exact .refl _
  | cons item rest induction =>
      rw [List.forall_mem_cons] at each keeps
      rw [List.map_cons, List.map_cons, all_cons, all_cons]
      apply and_then_concur (each.1 state fit)
      exact fun result done => induction each.2 keeps.2 (keeps.1 state result fit done)

end Step

theorem Portion.filled_concur (left right : Portion) (trail : left.trail = right.trail)
    (fallback : left.fallback = right.fallback) {whole : Val}
    (part : Concur (left.step ((whole.at? right.trail).getD right.fallback))
      (right.step ((whole.at? right.trail).getD right.fallback))) :
    Concur (left.filled whole) (right.filled whole) := by
  simp only [filled, trail, fallback]
  exact ⟨part.succeed, fun ok => congrArg (whole.overwrite right.trail) (part.same ok)⟩

section Elements

variable {Item Contents : Type} {read : Slots → Reading Item Slots}

/-- The induction is on the elements that are left. -/
theorem read_elements_concur (reads : ReadsElement read) (add : Contents → Item → Contents)
    {nodes others : List Node}
    (each : List.Forall₂ (fun node other => ∀ left right : Slots, left.current? = some node →
      right.current? = some other → Concur (read left).made (read right).made) nodes others)
    {left right : Slots} (leftRemaining : left.items.drop left.cursor = nodes)
    (rightRemaining : right.items.drop right.cursor = others) {bound : Nat}
    (enough : nodes.length ≤ bound) (contents : Contents) :
    Concur (readElements read add bound contents left).made
      (readElements read add bound contents right).made := by
  induction each generalizing left right bound contents with
  | nil =>
      cases bound with
      | zero => exact .refl _
      | succ bound =>
          rw [readElements, readElements, complete_of_drop leftRemaining,
            complete_of_drop rightRemaining]
          exact .refl _
  | @cons node other nodes others first _ induction =>
      obtain ⟨bound, rfl⟩ := Nat.exists_eq_add_of_le' (Nat.one_le_of_lt enough)
      have leftCurrent := current_of_drop leftRemaining
      have rightCurrent := current_of_drop rightRemaining
      have further := @induction (read left).source (read right).source
        (drop_of_keeps (reads.keeps leftCurrent) leftRemaining)
        (drop_of_keeps (reads.keeps rightCurrent) rightRemaining) bound
        (Nat.le_of_succ_le_succ enough)
      rw [readElements, readElements, incomplete_of_drop leftRemaining,
        incomplete_of_drop rightRemaining]
      simp only [Bool.false_eq_true, if_false]
      rcases (first left right leftCurrent rightCurrent).either with
        ⟨result, done, other⟩ | ⟨fault, otherFault, failed, otherFailed⟩
      · obtain ⟨leftDone, rfl⟩ := Prod.mk.inj done
        obtain ⟨rightDone, rightTarget⟩ := Prod.mk.inj other
        rw [leftDone, rightDone, rightTarget]
        exact further _
      · have failed : (read left).outcome = _ := failed
        have otherFailed : (read right).outcome = _ := otherFailed
        rw [failed, otherFailed]
        exact .failed rfl rfl

end Elements

namespace Val

variable {added others : List (Val × Val)}

/-- Where no two entries have one key, none is replaced. -/
theorem mem_insert_all (single : ∀ first ∈ added, ∀ second ∈ added, first.1 = second.1 → first = second)
    (entry : Val × Val) :
    entry ∈ added.foldl (fun entries entry => insertEntry entries entry.1 entry.2) [] ↔
      entry ∈ added := by
  induction added using List.reverseRecOn with
  | nil => simp
  | append_singleton added last induction =>
      have before := induction fun first firstInside second secondInside =>
        single first (List.mem_append_left _ firstInside) second (List.mem_append_left _ secondInside)
      rw [List.foldl_append, List.foldl_cons, List.foldl_nil,
        mem_insert_entry (insert_all_last added).sorted, before, List.mem_append, List.mem_singleton]
      constructor
      · rintro (same | ⟨inside, -⟩)
        · exact .inr same
        · exact .inl inside
      · rintro (inside | same)
        · by_cases own : entry.1 = last.1
          · exact .inl (single entry (List.mem_append_left _ inside) last (by simp) own)
          · exact .inr ⟨inside, own⟩
        · exact .inl same

theorem sorted_ext {left right : List (Val × Val)} (leftSorted : Sorted left)
    (rightSorted : Sorted right) (same : ∀ entry, entry ∈ left ↔ entry ∈ right) : left = right := by
  have distinct {entries : List (Val × Val)} (sorted : Sorted entries) : entries.Nodup :=
    sorted.imp fun less equal => key_different less (congrArg Prod.fst equal).symm
  refine ((List.perm_ext_iff_of_nodup (distinct leftSorted) (distinct rightSorted)).mpr
    same).eq_of_pairwise ?_ leftSorted rightSorted
  intro first second _ _ less greater
  rw [order_swap, greater] at less
  cases less

/-- In which order entries are added, and how often, does not matter, if no two have one key. -/
theorem insert_all_same (same : ∀ entry, entry ∈ added ↔ entry ∈ others)
    (single : ∀ first ∈ added, ∀ second ∈ added, first.1 = second.1 → first = second) :
    added.foldl (fun entries entry => insertEntry entries entry.1 entry.2) [] =
      others.foldl (fun entries entry => insertEntry entries entry.1 entry.2) [] := by
  apply sorted_ext (insert_all_last added).sorted (insert_all_last others).sorted
  intro entry
  rw [mem_insert_all single, mem_insert_all, same]
  simpa only [same] using single

end Val

section Entries

variable {schema : Schema} {valueType : Ty}

/-- The entry that a field is read as, its name being the key. -/
def Schema.entryOf (schema : Schema) (valueType : Ty) (fields : Fields) (name : String) : Val × Val :=
  (.text name, (schema.readNamed valueType (schema.default valueType) name fields).target)

/-- Every field is read from the fields as they were at first. -/
theorem read_entries_verbatim (assembled : schema.Assembled) (valueType : Ty) (keyType : String)
    {fields left : Fields}
    (kept : (Node.struct left).rewound = (Node.struct fields).rewound) (names : List String)
    (entries : List (Val × Val)) :
    let reading := readEntries .verbatim keyType
      (schema.readNamed valueType (schema.default valueType)) names entries left
    (reading.outcome = .ok () ↔ ∀ name ∈ names,
      (schema.readNamed valueType (schema.default valueType) name fields).outcome = .ok ()) ∧
    (reading.outcome = .ok () → reading.target = (names.map (schema.entryOf valueType fields)).foldl
      (fun entries entry => Val.insertEntry entries entry.1 entry.2) entries) := by
  induction names generalizing entries left with
  | nil => exact ⟨by simp [readEntries], fun _ => rfl⟩
  | cons name rest induction =>
      have same := schema.named_rewound valueType (schema.default valueType) name kept
      have traced := Schema.read_traced assembled valueType (schema.default valueType)
        (Fields.site name) left
      obtain ⟨outcome, target⟩ := Prod.mk.inj same
      dsimp only
      have readable : KeyNaming.verbatim.ofName? name = some name := rfl
      rw [readEntries, List.forall_mem_cons, ← outcome, readable]
      dsimp only
      cases first : (schema.readNamed valueType (schema.default valueType) name left).outcome with
      | error fault => simp
      | ok done =>
          obtain ⟨succeeds, result⟩ := induction (traced.kept.trans kept) (Val.insertEntry entries
            (.text name) (schema.readNamed valueType (schema.default valueType) name left).target)
          rw [List.map_cons, List.foldl_cons, Schema.entryOf, ← target]
          exact ⟨succeeds.trans (and_iff_right rfl).symm, result⟩

/-- Maps are read alike from structs whose fields are read alike, whatever their order. -/
theorem read_entries_concur (assembled : schema.Assembled) (keyType : String) {left right : Fields}
    (names : ∀ name, name ∈ left.names ↔ name ∈ right.names)
    (each : ∀ name ∈ left.names,
      Concur (schema.readNamed valueType (schema.default valueType) name left).made
        (schema.readNamed valueType (schema.default valueType) name right).made) :
    Concur
      (readEntries .verbatim keyType (schema.readNamed valueType (schema.default valueType)) left.names
        [] left).made
      (readEntries .verbatim keyType (schema.readNamed valueType (schema.default valueType))
        right.names [] right).made := by
  obtain ⟨leftOk, leftTarget⟩ :=
    read_entries_verbatim assembled valueType keyType (rfl : _ = (Node.struct left).rewound)
      left.names []
  obtain ⟨rightOk, rightTarget⟩ :=
    read_entries_verbatim assembled valueType keyType (rfl : _ = (Node.struct right).rewound)
      right.names []
  have succeed := leftOk.trans ((forall₂_congr fun name inside => (each name inside).succeed).trans
    ((forall_congr' fun name => imp_congr_left (names name)).trans rightOk.symm))
  refine ⟨succeed, fun ok => ?_⟩
  have read := leftOk.mp ok
  refine (leftTarget ok).trans (Eq.trans ?_ (rightTarget (succeed.mp ok)).symm)
  have entries : ∀ name ∈ left.names,
      schema.entryOf valueType left name = schema.entryOf valueType right name := fun name inside =>
    congrArg (Prod.mk _) ((each name inside).same (read name inside))
  apply Val.insert_all_same
  · intro entry
    simp only [List.mem_map, ← names]
    exact exists_congr fun name => and_congr_right fun inside => by rw [entries name inside]
  · simp only [List.forall_mem_map]
    intro first _ second _ same
    rw [Val.text.inj same]

end Entries

end Marshal
