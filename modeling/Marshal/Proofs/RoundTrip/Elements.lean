import Marshal.Proofs.RoundTrip.Carried

/-!
# Values carried by arrays

Sequences and tuples are carried by arrays with an element for each of their parts, an empty place
being a null. An element is read when its turn comes, since every reading moves on by one.
-/

namespace Marshal

theorem exists_forall₂ {Source Target : Type} {related : Source → Target → Prop}
    {sources : List Source} (each : ∀ source ∈ sources, ∃ target, related source target) :
    ∃ targets, List.Forall₂ related sources targets := by
  induction sources with
  | nil => exact ⟨[], .nil⟩
  | cons source rest induction =>
      obtain ⟨target, first⟩ := each source List.mem_cons_self
      obtain ⟨targets, further⟩ :=
        induction fun other inside => each other (List.mem_cons_of_mem _ inside)
      exact ⟨target :: targets, .cons first further⟩

theorem Node.depth_item {items : List Node} {node : Node} (inside : node ∈ items) :
    node.depth ≤ Node.depthItems items := by
  induction items with
  | nil => simp at inside
  | cons first rest induction =>
      rw [Node.depthItems]
      rcases List.mem_cons.mp inside with rfl | further
      · exact Nat.le_max_left _ _
      · exact (induction further).trans (Nat.le_max_right _ _)

/-- The element of an array that stands for a place. -/
def elementOf (node? : Option Node) : Node := node?.getD .null

theorem depth_element (node? : Option Node) : node?.elim 0 Node.depth = (elementOf node?).depth := by
  cases node? <;> rfl

/-- Steps that push a node each leave all nodes in their order. -/
theorem all_from_pushes {steps : List (Step Slots)} {nodes : List Node}
    (each : List.Forall₂ (fun step node => ∀ slots : Slots, step slots = (.ok (), slots.push node))
      steps nodes) (position : Nat) (slots : Slots) :
    Step.allFrom position steps slots = (.ok (), ⟨slots.items ++ nodes, slots.cursor⟩) := by
  induction each generalizing position slots with
  | nil => simp [Step.allFrom, Step.done]
  | cons first _ induction =>
      rw [Step.allFrom, Step.andThen, Step.mapFault, first]
      dsimp only
      rw [induction, Slots.push, List.append_assoc, List.singleton_append]

section Reading

variable {slots left : Slots} {node : Node} {rest : List Node}

theorem current_of_drop (remaining : slots.items.drop slots.cursor = node :: rest) :
    slots.current? = some node := by
  have first : (slots.items.drop slots.cursor)[0]? = some node := by rw [remaining]; rfl
  simpa [Slots.current?, List.getElem?_drop] using first

theorem incomplete_of_drop (remaining : slots.items.drop slots.cursor = node :: rest) :
    slots.isComplete = false := by
  have size := congrArg List.length remaining
  simp only [List.length_drop, List.length_cons] at size
  simp only [Slots.isComplete, decide_eq_false_iff_not]
  omega

theorem complete_of_drop (remaining : slots.items.drop slots.cursor = []) :
    slots.isComplete = true := by
  have size := congrArg List.length remaining
  simp only [List.length_drop, List.length_nil] at size
  simp only [Slots.isComplete, decide_eq_true_eq]
  omega

theorem drop_of_keeps (keeps : Slots.place.Keeps slots left)
    (remaining : slots.items.drop slots.cursor = node :: rest) :
    left.items.drop left.cursor = rest := by
  obtain ⟨moved, -, same⟩ := keeps
  have further : slots.items.drop (slots.cursor + 1) = rest := by
    rw [← List.drop_drop, remaining]
    rfl
  rw [moved, ← further]
  apply List.ext_getElem?
  intro position
  rw [List.getElem?_drop, List.getElem?_drop]
  exact same _ (by omega)

/-- Elements that are each read as an item are read as all the items. -/
theorem read_elements_yields {Item Contents : Type} {read : Slots → Reading Item Slots}
    (add : Contents → Item → Contents) {nodes : List Node} {results : List Item}
    (each : List.Forall₂ (fun node result => ∀ slots : Slots, slots.current? = some node →
      (read slots).Yields result (Slots.place.Keeps slots)) nodes results) {bound : Nat}
    (enough : nodes.length ≤ bound) (slots : Slots)
    (remaining : slots.items.drop slots.cursor = nodes) (contents : Contents) :
    (readElements read add bound contents slots).Yields (results.foldl add contents)
      fun _ => True := by
  induction each generalizing bound slots contents with
  | nil =>
      cases bound with
      | zero => exact ⟨rfl, rfl, trivial⟩
      | succ bound =>
          rw [readElements, complete_of_drop remaining]
          exact ⟨rfl, rfl, trivial⟩
  | @cons node result nodes results first _ induction =>
      obtain ⟨bound, rfl⟩ : ∃ smaller, bound = smaller + 1 :=
        ⟨bound - 1, by simp only [List.length_cons] at enough; omega⟩
      obtain ⟨outcome, target, source⟩ := first slots (current_of_drop remaining)
      have others := induction (Nat.le_of_succ_le_succ enough) _ (drop_of_keeps source remaining)
        (add contents result)
      rw [readElements, incomplete_of_drop remaining]
      simp only [Bool.false_eq_true, if_false, outcome, target, Reading.after, List.foldl_cons]
      exact ⟨others.outcome, others.target, trivial⟩

end Reading

namespace Schema

variable {schema : Schema}

/-- The element of an array is read as the place that it stands for. -/
theorem Reread.element {type : Ty} {node? : Option Node} {target result : Val}
    (reread : schema.Reread type node? target result)
    {deeper : String → Val → Fields → Reading Val Fields}
    (deep : schema.Deep (elementOf node?).depth deeper) (slots : Slots)
    (current : slots.current? = some (elementOf node?)) :
    (schema.readAt deeper type target Slots.inlet slots).Yields result (Slots.place.Keeps slots) :=
  reread deeper (depth_element node? ▸ deep) Slots.place slots current

theorem items_reread (sound : schema.Sound) {item : Ty} {values : List Val}
    {nodes : List (Option Node)} (carried : List.Forall₂ (schema.Carries item) values nodes) :
    ∃ results, schema.RestoresItems item values results ∧
      List.Forall₂ (fun node? result => schema.Reread item node? (schema.default item) result)
        nodes results := by
  induction carried with
  | nil => exact ⟨[], .nil, .nil⟩
  | cons first _ induction =>
      obtain ⟨results, restores, rereads⟩ := induction
      obtain ⟨result, firstRestores, firstReread⟩ := first.read _ (default_typed sound item)
      exact ⟨result :: results, .cons firstRestores restores, .cons firstReread rereads⟩

theorem elements_read {Source Item : Type} (element : Source → Node)
    {related : Source → Item → Prop} {read : Slots → Reading Item Slots} {bound : Nat}
    {sources : List Source} {results : List Item}
    (rereads : List.Forall₂ related sources results)
    (each : ∀ source result, related source result → (element source).depth ≤ bound →
      ∀ slots : Slots, slots.current? = some (element source) →
        (read slots).Yields result (Slots.place.Keeps slots))
    (shallow : Node.depthItems (sources.map element) ≤ bound) :
    List.Forall₂ (fun node result => ∀ slots : Slots, slots.current? = some node →
      (read slots).Yields result (Slots.place.Keeps slots)) (sources.map element) results := by
  induction rereads with
  | nil => exact .nil
  | @cons source result _ _ first _ induction =>
      rw [List.map_cons, Node.depthItems] at shallow
      exact .cons (each source result first (by omega)) (induction (by omega))

/-- Elements are appended one by one to an array. -/
theorem items_written {item : Ty} {values : List Val} {nodes : List (Option Node)}
    (written : List.Forall₂ (schema.Written item) values nodes) {levels : Nat}
    (enough : Val.depthItems values ≤ levels) :
    List.Forall₂ (fun step node => ∀ slots : Slots, step slots = (.ok (), slots.push node))
      (values.map fun element => schema.writeAt treeSink (schema.writeStructure treeSink levels) item
        element treeSink.next) (nodes.map elementOf) := by
  induction written with
  | nil => exact .nil
  | cons first _ induction =>
      rw [Val.depthItems] at enough
      exact .cons (first levels (by omega) Slots.place) (induction (by omega))

theorem foldl_append_items (results items : List Val) :
    results.foldl (fun items element => items ++ [element]) items = items ++ results := by
  induction results generalizing items with
  | nil => simp
  | cons result rest induction =>
      rw [List.foldl_cons, induction, List.append_assoc, List.singleton_append]

theorem sequence_written {kind : SequenceKind} {item : Ty} {values : List Val}
    {nodes : List (Option Node)} (written : List.Forall₂ (schema.Written item) values nodes) :
    schema.Written (.sequence kind item) (.list values) (some (.array (nodes.map elementOf) 0)) := by
  intro levels enough State place state
  rw [Val.depth] at enough
  rw [writeAt, place.array_eq, Val.items,
    all_from_pushes (items_written written (by omega)) 0 .empty]
  rfl

theorem sequence_reread {kind : SequenceKind} {item : Ty} {nodes : List (Option Node)}
    {results : List Val} (rereads : List.Forall₂
      (fun node? result => schema.Reread item node? (schema.default item) result) nodes results)
    (target : Val) :
    schema.Reread (.sequence kind item) (some (.array (nodes.map elementOf) 0)) target
      (.list results) := by
  intro deeper deep State place state shows
  have deep : schema.Deep (Node.depthItems (nodes.map elementOf)) deeper :=
    deep.mono (Nat.le_succ _)
  have yields := read_elements_yields (fun items element => items ++ [element])
    (elements_read elementOf rereads (fun node? result reread inside => reread.element (deep.mono inside))
      le_rfl) le_rfl ⟨nodes.map elementOf, 0⟩ rfl []
  rw [readAt, place.open_array_eq shows]
  refine ⟨yields.outcome, ?_, place.array_keeps _ shows⟩
  exact congrArg Val.list (yields.target.trans (foldl_append_items results []))

/-- A sequence is carried by the array of its elements' nodes. -/
theorem sequence_carries (sound : schema.Sound) {kind : SequenceKind} {item : Ty}
    {values : List Val} (each : ∀ value ∈ values, ∃ node?, schema.Carries item value node?) :
    ∃ node?, schema.Carries (.sequence kind item) (.list values) node? := by
  obtain ⟨nodes, carried⟩ := exists_forall₂ each
  refine ⟨some (.array (nodes.map elementOf) 0),
    sequence_written (carried.imp fun _ _ => Carries.always_written), by simp, by simp, ?_⟩
  intro target _
  obtain ⟨results, restores, rereads⟩ := items_reread sound carried
  exact ⟨.list results, .sequence restores, sequence_reread rereads target⟩

theorem slots_written {types : List Ty} {values : List Val} {nodes : List (Option Node)}
    (written : List.Forall₂ (fun slot node? => schema.Written slot.1 slot.2 node?)
      (types.zip values) nodes) {levels : Nat} (enough : Val.depthItems values ≤ levels) :
    List.Forall₂ (fun step node => ∀ slots : Slots, step slots = (.ok (), slots.push node))
      (schema.writeSlots treeSink (schema.writeStructure treeSink levels) types values)
      (nodes.map elementOf) := by
  induction types generalizing values nodes with
  | nil =>
      rw [List.zip_nil_left, List.forall₂_nil_left_iff] at written
      subst written
      rw [writeSlots]
      · exact .nil
      · simp
  | cons type types induction =>
      cases values with
      | nil =>
          rw [List.zip_nil_right, List.forall₂_nil_left_iff] at written
          subst written
          rw [writeSlots]
          · exact .nil
          · simp
      | cons value values =>
          rw [Val.depthItems] at enough
          rw [List.zip_cons_cons, List.forall₂_cons_left_iff] at written
          obtain ⟨node?, others, first, further, rfl⟩ := written
          have own : value.depth ≤ levels := by omega
          rw [writeSlots]
          exact .cons (first levels own Slots.place) (induction further (by omega))

theorem tuple_written {types : List Ty} {values : List Val} {nodes : List (Option Node)}
    (written : List.Forall₂ (fun slot node? => schema.Written slot.1 slot.2 node?)
      (types.zip values) nodes) :
    schema.Written (.tuple types) (.tuple values) (some (.array (nodes.map elementOf) 0)) := by
  intro levels enough State place state
  rw [Val.depth] at enough
  rw [writeAt, place.array_eq, Val.slots,
    all_from_pushes (slots_written written (by omega)) 0 .empty]
  rfl

/-- That the nodes of a tuple's slots are each read into the target of the slot. -/
inductive RereadSlots (schema : Schema) :
    List Ty → List (Option Node) → List Val → List Val → Prop
  | nil : RereadSlots schema [] [] [] []
  | cons {type : Ty} {types : List Ty} {node? : Option Node} {nodes : List (Option Node)}
      {target result : Val} {targets results : List Val}
      (first : schema.Reread type node? target result)
      (others : RereadSlots schema types nodes targets results) :
      RereadSlots schema (type :: types) (node? :: nodes) (target :: targets) (result :: results)

/-- Every slot of a tuple is read in place, from the element that its turn has come to. -/
theorem slots_read {types : List Ty} {nodes : List (Option Node)} {targets results : List Val}
    (rereads : schema.RereadSlots types nodes targets results)
    {deeper : String → Val → Fields → Reading Val Fields}
    (deep : schema.Deep (Node.depthItems (nodes.map elementOf)) deeper) (arity position : Nat)
    (slots : Slots) (remaining : slots.items.drop slots.cursor = nodes.map elementOf) :
    (schema.readSlots deeper arity position types targets slots).Yields results fun _ => True := by
  induction rereads generalizing position slots with
  | nil =>
      rw [readSlots, complete_of_drop remaining]
      exact ⟨rfl, rfl, trivial⟩
  | @cons _ _ _ _ _ result _ _ first _ induction =>
      rw [List.map_cons] at remaining
      rw [List.map_cons, Node.depthItems] at deep
      obtain ⟨outcome, target, source⟩ := first.element (deep.mono (Nat.le_max_left _ _))
        slots (current_of_drop remaining)
      have others := induction (deep.mono (Nat.le_max_right _ _)) (position + 1) _
        (drop_of_keeps source remaining)
      rw [readSlots, incomplete_of_drop remaining]
      simp only [Bool.false_eq_true, if_false, List.head?_cons, Option.getD_some, List.tail_cons,
        outcome, target]
      exact ⟨others.outcome, congrArg (result :: ·) others.target, trivial⟩

theorem tuple_reread {types : List Ty} {nodes : List (Option Node)} {targets results : List Val}
    (rereads : schema.RereadSlots types nodes targets results) :
    schema.Reread (.tuple types) (some (.array (nodes.map elementOf) 0)) (.tuple targets)
      (.tuple results) := by
  intro deeper deep State place state shows
  have deep : schema.Deep (Node.depthItems (nodes.map elementOf)) deeper :=
    deep.mono (Nat.le_succ _)
  have yields := slots_read rereads deep types.length 0 ⟨nodes.map elementOf, 0⟩ rfl
  rw [readAt, place.open_array_eq shows]
  exact ⟨yields.outcome, congrArg Val.tuple yields.target, place.array_keeps _ shows⟩

theorem slots_reread {types : List Ty} {values targets : List Val} {nodes : List (Option Node)}
    (typed : List.Forall₂ schema.HasType types values)
    (targetsTyped : List.Forall₂ schema.HasType types targets)
    (carried : List.Forall₂ (fun slot node? => schema.Carries slot.1 slot.2 node?)
      (types.zip values) nodes) :
    ∃ results, schema.RestoresSlots types values targets results ∧
      schema.RereadSlots types nodes targets results := by
  induction types generalizing values targets nodes with
  | nil =>
      cases typed
      cases targetsTyped
      cases carried
      exact ⟨[], .nil, .nil⟩
  | cons type types induction =>
      rcases typed with _ | ⟨-, othersTyped⟩
      rcases targetsTyped with _ | ⟨targetTyped, otherTargets⟩
      rw [List.zip_cons_cons, List.forall₂_cons_left_iff] at carried
      obtain ⟨node?, nodes, first, further, rfl⟩ := carried
      obtain ⟨result, firstRestores, firstReread⟩ := first.read _ targetTyped
      obtain ⟨results, restores, rereads⟩ := induction othersTyped otherTargets further
      exact ⟨result :: results, .cons firstRestores restores, .cons firstReread rereads⟩

/-- A tuple is carried by the array of its slots' nodes. -/
theorem tuple_carries {types : List Ty} {values : List Val}
    (typed : List.Forall₂ schema.HasType types values)
    (each : ∀ slot ∈ types.zip values, ∃ node?, schema.Carries slot.1 slot.2 node?) :
    ∃ node?, schema.Carries (.tuple types) (.tuple values) node? := by
  obtain ⟨nodes, carried⟩ := exists_forall₂ each
  refine ⟨some (.array (nodes.map elementOf) 0),
    tuple_written (carried.imp fun _ _ => Carries.always_written), by simp, by simp, ?_⟩
  intro target targetTyped
  cases targetTyped with
  | tuple targetsTyped =>
      obtain ⟨results, restores, rereads⟩ := slots_reread typed targetsTyped carried
      exact ⟨.tuple results, .tuple restores, tuple_reread rereads⟩

end Schema

end Marshal
