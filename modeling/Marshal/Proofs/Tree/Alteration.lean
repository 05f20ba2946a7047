import Marshal.Proofs.Tree.Cursors
import Marshal.Proofs.Writing.Names

/-!
# Documents altered in one place

A change at the end of a trail leaves everything else of a document as it was, and where it is: the
fields beside it keep their order, and so do the elements. Putting a node under a name is such a
change if the name is there, and else the node comes last.
-/

namespace Marshal

namespace Fields

/-- How a struct takes in a node under a name: in the place of the first node of that name, or at the
end if there is none. -/
inductive Receives (name : String) (node : Node) : Fields → Fields → Prop
  | replaced (before after : Fields) (old : Node) (first : name ∉ before.names) :
      Receives name node (before ++ (name, old) :: after) (before ++ (name, node) :: after)
  | appended (fields : Fields) (absent : name ∉ fields.names) :
      Receives name node fields (fields ++ [(name, node)])

variable {fields : Fields} {name : String} {node : Node}

theorem get_splits (found : fields.get? name = some node) :
    ∃ before after, fields = before ++ (name, node) :: after ∧ name ∉ before.names := by
  induction fields with
  | nil => cases found
  | cons field rest induction =>
      obtain ⟨present, old⟩ := field
      rw [get?] at found
      split_ifs at found with same
      · cases found
        exact ⟨[], rest, by rw [same, List.nil_append], by simp [names]⟩
      · obtain ⟨before, after, rfl, first⟩ := induction found
        refine ⟨(present, old) :: before, after, rfl, ?_⟩
        rw [names, List.map_cons, List.mem_cons, not_or]
        exact ⟨Ne.symm same, first⟩

theorem put_splits {before : Fields} (first : name ∉ before.names) (old node : Node)
    (after : Fields) :
    put (before ++ (name, old) :: after) name node = before ++ (name, node) :: after := by
  induction before with
  | nil => rw [List.nil_append, put, if_pos rfl, List.nil_append]
  | cons field rest induction =>
      obtain ⟨present, other⟩ := field
      rw [names, List.map_cons, List.mem_cons, not_or] at first
      rw [List.cons_append, put, if_neg (Ne.symm first.1), induction first.2, List.cons_append]

theorem put_receives (fields : Fields) (name : String) (node : Node) :
    Receives name node fields (fields.put name node) := by
  cases found : fields.get? name with
  | none =>
      have absent := absent_of_get found
      rw [put_absent absent]
      exact .appended fields absent
  | some old =>
      obtain ⟨before, after, rfl, first⟩ := get_splits found
      rw [put_splits first]
      exact .replaced before after old first

theorem erase_sublist (fields : Fields) (name : String) : (fields.erase name).Sublist fields := by
  induction fields with
  | nil => exact List.Sublist.slnil
  | cons field rest induction =>
      rw [erase]
      split_ifs
      · exact List.sublist_cons_self _ _
      · exact induction.cons_cons _

/-- What is left are the other fields, in their order. -/
theorem erase_filter (distinct : fields.names.Nodup) (name : String) :
    fields.erase name = fields.filter fun field => field.1 ≠ name := by
  induction fields with
  | nil => rfl
  | cons field rest induction =>
      obtain ⟨present, old⟩ := field
      rw [names, List.map_cons, List.nodup_cons] at distinct
      rw [erase]
      split_ifs with same
      · have others : ∀ field ∈ rest, decide (field.1 ≠ name) = true := by
          intro field inside
          rw [decide_eq_true_eq]
          intro own
          exact distinct.1 (List.mem_map.mpr ⟨field, inside, own.trans same.symm⟩)
        rw [List.filter_cons_of_neg (by simpa using same), List.filter_eq_self.mpr others]
      · rw [List.filter_cons_of_pos (by simpa using same), induction distinct.2]

theorem distinct_iff :
    fields.Distinct ↔ fields.names.Nodup ∧ ∀ field ∈ fields, field.2.namesDistinct = true := by
  have inside : Node.namesDistinctFields fields = true ↔
      ∀ field ∈ fields, field.2.namesDistinct = true := by
    induction fields with
    | nil => simp [Node.namesDistinctFields]
    | cons field rest induction =>
        simp [Node.namesDistinctFields, induction]
  simp only [Distinct, Node.namesDistinct, Bool.and_eq_true, decide_eq_true_eq, inside]

theorem erase_distinct (distinct : fields.Distinct) (name : String) :
    (fields.erase name).Distinct := by
  rw [distinct_iff] at distinct ⊢
  have part := fields.erase_sublist name
  exact ⟨(part.map Prod.fst).nodup distinct.1,
    fun field inside => distinct.2 field (part.subset inside)⟩

end Fields

theorem Slots.distinct_iff {slots : Slots} :
    slots.Distinct ↔ ∀ item ∈ slots.items, item.namesDistinct = true := by
  obtain ⟨items, cursor⟩ := slots
  simp only [Distinct]
  induction items with
  | nil => simp [Node.namesDistinctItems]
  | cons item rest induction => simp [Node.namesDistinctItems, induction]

namespace Node

/-- That two documents are the same but for what stands at the end of a trail in each of them. -/
inductive DifferAt (part other : Node) : Trail → Node → Node → Prop
  | here : DifferAt part other [] part other
  | field {trail : Trail} {inner changed : Node} (inside : DifferAt part other trail inner changed)
      (before after : Fields) (name : String) (first : name ∉ before.names) :
      DifferAt part other (.field name :: trail) (.struct (before ++ (name, inner) :: after))
        (.struct (before ++ (name, changed) :: after))
  | item {trail : Trail} {inner changed : Node} (inside : DifferAt part other trail inner changed)
      (before after : List Node) (cursor : Nat) :
      DifferAt part other (.index before.length :: trail) (.array (before ++ inner :: after) cursor)
        (.array (before ++ changed :: after) cursor)

variable {whole next part other : Node} {trail : Trail}

theorem items_split {items : List Node} {position : Nat} {node : Node}
    (found : items[position]? = some node) :
    ∃ before after, items = before ++ node :: after ∧ before.length = position := by
  obtain ⟨inside, rfl⟩ := List.getElem?_eq_some_iff.mp found
  refine ⟨items.take position, items.drop (position + 1), ?_, ?_⟩
  · rw [← List.drop_eq_getElem_cons, List.take_append_drop]
  · rw [List.length_take]
    omega

/-- A change at the end of a trail alters nothing else. -/
theorem modify_differs (found : whole.get? trail = some part) (change : Node → Node) :
    DifferAt part (change part) trail whole (whole.modify change trail) := by
  induction trail generalizing whole with
  | nil =>
      cases found
      exact .here
  | cons segment rest induction =>
      cases whole with
      | struct fields =>
          cases segment with
          | index position => cases found
          | field name =>
              obtain ⟨inner, stands, leads⟩ := Option.bind_eq_some_iff.mp found
              rw [modify, stands]
              obtain ⟨before, after, rfl, first⟩ := Fields.get_splits stands
              simp only [Fields.put_splits first]
              exact .field (induction leads) before after name first
      | array items cursor =>
          cases segment with
          | field name => cases found
          | index position =>
              obtain ⟨inner, stands, leads⟩ := Option.bind_eq_some_iff.mp found
              rw [modify, stands]
              obtain ⟨before, after, rfl, rfl⟩ := items_split stands
              simp only [List.set_append_right _ _ (Nat.le_refl _), Nat.sub_self, List.set_cons_zero]
              exact .item (induction leads) before after cursor
      | _ => cases segment <;> cases found

theorem modify_nowhere (nowhere : whole.get? trail = none) (change : Node → Node) :
    whole.modify change trail = whole := by
  induction trail generalizing whole with
  | nil => cases nowhere
  | cons segment rest induction =>
      cases whole with
      | struct fields =>
          cases segment with
          | index position => rfl
          | field name =>
              rw [modify]
              cases stands : Fields.get? fields name with
              | none => rfl
              | some inner =>
                  rw [get?, stands] at nowhere
                  simp only [induction nowhere, Fields.put_own stands]
      | array items cursor =>
          cases segment with
          | field name => rfl
          | index position =>
              rw [modify]
              cases stands : items[position]? with
              | none => rfl
              | some inner =>
                  rw [get?, stands] at nowhere
                  obtain ⟨inside, rfl⟩ := List.getElem?_eq_some_iff.mp stands
                  simp only [induction nowhere, List.set_getElem_self]
      | _ => cases segment <;> rfl

theorem DifferAt.whole_eq (alike : DifferAt part other trail whole next) (same : other = part) :
    next = whole := by
  induction alike with
  | here => exact same
  | field inside before after name first induction => rw [induction]
  | item inside before after cursor induction => rw [induction]

theorem get_append (node : Node) (outer inner : Trail) :
    node.get? (outer ++ inner) = (node.get? outer).bind fun part => part.get? inner := by
  induction outer generalizing node with
  | nil => rfl
  | cons segment rest induction =>
      cases node with
      | struct fields =>
          cases segment with
          | index position => rfl
          | field name =>
              rw [List.cons_append, get?, get?, Option.bind_assoc]
              exact Option.bind_congr fun part _ => induction part
      | array items cursor =>
          cases segment with
          | field name => rfl
          | index position =>
              rw [List.cons_append, get?, get?, Option.bind_assoc]
              exact Option.bind_congr fun part _ => induction part
      | _ => cases segment <;> rfl

/-- The trail leads to what it was altered to. -/
theorem DifferAt.leads (alike : DifferAt part other trail whole next) :
    next.get? trail = some other := by
  induction alike with
  | here => rfl
  | @field trail inner changed inside before after name first induction =>
      have stands : Fields.get? (before ++ (name, changed) :: after) name = some changed := by
        rw [← Fields.put_splits first changed, Fields.get_put, if_pos rfl]
      rw [get?, stands, Option.bind_some, induction]
  | @item trail inner changed inside before after cursor induction =>
      rw [get?, List.getElem?_append_right (Nat.le_refl _), Nat.sub_self, List.getElem?_cons_zero,
        Option.bind_some, induction]

theorem names_distinct_struct {fields : Fields} :
    (Node.struct fields).namesDistinct = true ↔
      fields.names.Nodup ∧ ∀ field ∈ fields, field.2.namesDistinct = true := Fields.distinct_iff

theorem names_distinct_array {items : List Node} {cursor : Nat} :
    (Node.array items cursor).namesDistinct = true ↔ ∀ item ∈ items, item.namesDistinct = true :=
  @Slots.distinct_iff ⟨items, cursor⟩

theorem DifferAt.part_distinct (alike : DifferAt part other trail whole next)
    (distinct : whole.namesDistinct = true) : part.namesDistinct = true := by
  induction alike with
  | here => exact distinct
  | @field trail inner changed inside before after name first induction =>
      exact induction ((names_distinct_struct.mp distinct).2 (name, inner) (by simp))
  | item inside before after cursor induction =>
      exact induction (names_distinct_array.mp distinct _ (by simp))

/-- Names are distinct everywhere if they were, and are so where the document is altered. -/
theorem DifferAt.next_distinct (alike : DifferAt part other trail whole next)
    (distinct : whole.namesDistinct = true) (inside : other.namesDistinct = true) :
    next.namesDistinct = true := by
  induction alike with
  | here => exact inside
  | field further before after name first induction =>
      rw [names_distinct_struct, Fields.names, List.map_append, List.map_cons,
        List.forall_mem_append, List.forall_mem_cons] at distinct ⊢
      exact ⟨distinct.1, distinct.2.1, induction distinct.2.2.1, distinct.2.2.2⟩
  | item further before after cursor induction =>
      rw [names_distinct_array, List.forall_mem_append, List.forall_mem_cons] at distinct ⊢
      exact ⟨distinct.1, induction distinct.2.1, distinct.2.2⟩

end Node

end Marshal
