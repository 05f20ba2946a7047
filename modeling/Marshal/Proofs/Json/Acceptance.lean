import Marshal.Proofs.Json.Merging
import Marshal.Proofs.Json.Spelling

/-!
# Which texts are read, and as what

The entries that a text tells of may repeat a name, at any level. A text is read exactly if its tokens
spell a document that is not nested too deeply, and what is read is that document with its entries
merged.
-/

namespace Marshal

namespace Json

/-! ## Spelled documents are read -/

/-- That tokens are taken as a node, merged, wherever a value is expected under as many containers as
leave room for its own. They do not begin like the end of an array. -/
def TakenAs (located : List Located) (node : Node) : Prop :=
  ∃ first others, located = first :: others ∧ first.token ≠ .closeArray ∧
    ∀ (frames : List Frame) (rest : List Located), frames.length + node.depth ≤ nestingLimit →
      resume (takeValue first frames) (others ++ rest) = resume (deliver node.merged frames) rest

theorem taken_scalar {located : List Located} {node : Node} {token : Token}
    (spelled : located.map Located.token = [token]) (value : token ≠ .closeArray)
    (taken : ∀ start frames, takeValue ⟨token, start⟩ frames = deliver node.merged frames) :
    TakenAs located node := by
  obtain ⟨⟨found, start⟩, rfl, rfl⟩ := List.map_eq_singleton_iff.mp spelled
  exact ⟨_, [], rfl, value, fun frames rest _ => by rw [taken]; rfl⟩

/-- Tokens of a container: its opening, what it holds and its end. -/
theorem spelled_container {located : List Located} {opening closing : Token} {parts : List Token}
    (spelled : located.map Located.token = opening :: (parts ++ [closing])) :
    ∃ start own stop, located = ⟨opening, start⟩ :: (own ++ [⟨closing, stop⟩]) ∧
      own.map Located.token = parts := by
  obtain ⟨⟨first, start⟩, others, rfl, rfl, further⟩ := List.map_eq_cons_iff.mp spelled
  obtain ⟨own, last, rfl, inner, closes⟩ := List.map_eq_append_iff.mp further
  obtain ⟨⟨found, stop⟩, rfl, rfl⟩ := List.map_eq_singleton_iff.mp closes
  exact ⟨start, own, stop, rfl, inner⟩

/-- Tokens of a node and of what follows it, unless it is the last one. -/
theorem spelled_part {located : List Located} {node : Node} {last : Bool} {more : List Token}
    (spelled : located.map Located.token = node.spelled ++ if last then [] else .comma :: more) :
    ∃ own after, located = own ++ after ∧ own.map Located.token = node.spelled ∧
      if last then after = []
      else ∃ start others, after = ⟨.comma, start⟩ :: others ∧ others.map Located.token = more := by
  obtain ⟨own, after, rfl, inner, further⟩ := List.map_eq_append_iff.mp spelled
  refine ⟨own, after, rfl, inner, ?_⟩
  cases last with
  | true => exact List.map_eq_nil_iff.mp further
  | false =>
      obtain ⟨⟨found, start⟩, others, rfl, rfl, others_spelled⟩ := List.map_eq_cons_iff.mp further
      exact ⟨start, others, rfl, others_spelled⟩

mutual

theorem node_taken (node : Node) (located : List Located)
    (spelled : located.map Located.token = node.spelled) : TakenAs located node := by
  cases node with
  | struct pairs =>
      obtain ⟨start, own, stop, rfl, inner⟩ := spelled_container spelled
      refine ⟨_, _, rfl, by simp, ?_⟩
      intro frames rest room
      have begun : takeValue ⟨.openStruct, start⟩ frames = .running ⟨.firstName, frames⟩ :=
        begin_inside room
      rw [begun, resume, List.append_assoc, List.singleton_append]
      cases pairs with
      | nil =>
          obtain rfl := List.map_eq_nil_iff.mp inner
          rw [List.nil_append, run_cons]
          rfl
      | cons pair more =>
          exact entries_taken (pair :: more) (by simp) own inner stop [] .firstName
            (.inr ⟨rfl, rfl⟩) frames rest room
  | array items cursor =>
      obtain ⟨start, own, stop, rfl, inner⟩ := spelled_container spelled
      refine ⟨_, _, rfl, by simp, ?_⟩
      intro frames rest room
      have begun : takeValue ⟨.openArray, start⟩ frames = .running ⟨.firstItem, frames⟩ :=
        begin_inside room
      rw [begun, resume, List.append_assoc, List.singleton_append]
      cases items with
      | nil =>
          obtain rfl := List.map_eq_nil_iff.mp inner
          rw [List.nil_append, run_cons]
          rfl
      | cons item more =>
          exact items_taken (item :: more) (by simp) own inner stop [] .firstItem
            (.inr ⟨rfl, rfl⟩) frames rest room
  | _ => exact taken_scalar spelled (by simp) fun _ _ => rfl

/-- The entries before are merged already; each entry is merged with them when its node is read. -/
theorem entries_taken (pairs : List (String × Node)) (nonempty : pairs ≠ []) (own : List Located)
    (spelled : own.map Located.token = Node.spelledFields pairs) (stop : List Char) (done : Fields)
    (expect : Expect) (expected : expect = .nextName done ∨ expect = .firstName ∧ done = [])
    (frames : List Frame) (rest : List Located)
    (room : frames.length + (Node.depthFields pairs + 1) ≤ nestingLimit) :
    run ⟨expect, frames⟩ (own ++ ⟨.closeStruct, stop⟩ :: rest) =
      resume (deliver (.struct (done.putAll (Node.mergedEntries pairs))) frames) rest := by
  cases pairs with
  | nil => exact absurd rfl nonempty
  | cons pair more =>
      obtain ⟨name, node⟩ := pair
      obtain ⟨⟨text, start⟩, divided, rfl, rfl, named⟩ := List.map_eq_cons_iff.mp spelled
      obtain ⟨⟨mark, middle⟩, content, rfl, rfl, held⟩ := List.map_eq_cons_iff.mp named
      obtain ⟨inner, after, rfl, part, further⟩ := spelled_part held
      obtain ⟨first, others, rfl, -, taken⟩ := node_taken node inner part
      rw [Node.depthFields] at room
      have inside : (Frame.entry done name :: frames).length + node.depth ≤ nestingLimit := by
        rw [List.length_cons]
        omega
      have begun : step ⟨expect, frames⟩ ⟨.text name, start⟩ =
          .running ⟨.colon done name, frames⟩ := by
        rcases expected with rfl | ⟨rfl, rfl⟩ <;> rfl
      have divides : step ⟨.colon done name, frames⟩ ⟨.colon, middle⟩ =
          .running ⟨.value, .entry done name :: frames⟩ := rfl
      simp only [List.cons_append, List.append_assoc]
      rw [run_cons, begun, resume, run_cons, divides, resume, value_taken, taken _ _ inside, deliver,
        resume, Node.mergedEntries, Fields.putAll, List.foldl_cons]
      cases more with
      | nil =>
          obtain rfl : after = [] := further
          rw [List.nil_append, run_cons]
          rfl
      | cons other more =>
          obtain ⟨start, others, rfl, othersSpelled⟩ := further
          have goesOn : step ⟨.afterEntry (done.put name node.merged), frames⟩ ⟨.comma, start⟩ =
            .running ⟨.nextName (done.put name node.merged), frames⟩ := rfl
          rw [List.cons_append, run_cons, goesOn, resume]
          exact entries_taken (other :: more) (by simp) others othersSpelled stop _ _ (.inl rfl) frames
            rest (by omega)

theorem items_taken (items : List Node) (nonempty : items ≠ []) (own : List Located)
    (spelled : own.map Located.token = Node.spelledItems items) (stop : List Char)
    (reversed : List Node) (expect : Expect)
    (expected : expect = .nextItem reversed ∨ expect = .firstItem ∧ reversed = [])
    (frames : List Frame) (rest : List Located)
    (room : frames.length + (Node.depthItems items + 1) ≤ nestingLimit) :
    run ⟨expect, frames⟩ (own ++ ⟨.closeArray, stop⟩ :: rest) =
      resume (deliver (.array (reversed.reverse ++ Node.mergedItems items) 0) frames) rest := by
  cases items with
  | nil => exact absurd rfl nonempty
  | cons node more =>
      obtain ⟨inner, after, rfl, part, further⟩ := spelled_part spelled
      obtain ⟨first, others, rfl, value, taken⟩ := node_taken node inner part
      rw [Node.depthItems] at room
      have inside : (Frame.items reversed :: frames).length + node.depth ≤ nestingLimit := by
        rw [List.length_cons]
        omega
      have begun : step ⟨expect, frames⟩ first = takeValue first (.items reversed :: frames) := by
        obtain ⟨token, start⟩ := first
        rcases expected with rfl | ⟨rfl, rfl⟩ <;> unfold step <;> split <;> simp_all
      simp only [List.cons_append, List.append_assoc]
      rw [run_cons, begun, taken _ _ inside, deliver, resume, Node.mergedItems]
      cases more with
      | nil =>
          obtain rfl : after = [] := further
          rw [List.nil_append, run_cons, Node.mergedItems, ← List.reverse_cons]
          rfl
      | cons other more =>
          obtain ⟨start, others, rfl, othersSpelled⟩ := further
          have goesOn : step ⟨.afterItem (node.merged :: reversed), frames⟩ ⟨.comma, start⟩ =
            .running ⟨.nextItem (node.merged :: reversed), frames⟩ := rfl
          rw [List.cons_append, run_cons, goesOn, resume,
            items_taken (other :: more) (by simp) others othersSpelled stop (node.merged :: reversed) _
              (.inl rfl) frames rest (by omega), List.reverse_cons, List.append_assoc,
            List.singleton_append]

end

/-! ## What is read is spelled -/

/-- The tokens of entries that another one follows. -/
def entriesBefore (pairs : List (String × Node)) : List Token :=
  if pairs = [] then [] else Node.spelledFields pairs ++ [.comma]

def itemsBefore (items : List Node) : List Token :=
  if items = [] then [] else Node.spelledItems items ++ [.comma]

theorem spelled_fields_snoc (pairs : List (String × Node)) (name : String) (node : Node) :
    Node.spelledFields (pairs ++ [(name, node)]) =
      entriesBefore pairs ++ .text name :: .colon :: node.spelled := by
  induction pairs with
  | nil => simp [entriesBefore, Node.spelledFields]
  | cons pair rest induction =>
      rw [List.cons_append, Node.spelledFields, induction]
      cases rest <;> simp [entriesBefore, Node.spelledFields]

theorem spelled_items_snoc (items : List Node) (node : Node) :
    Node.spelledItems (items ++ [node]) = itemsBefore items ++ node.spelled := by
  induction items with
  | nil => simp [itemsBefore, Node.spelledItems]
  | cons item rest induction =>
      rw [List.cons_append, Node.spelledItems, induction]
      cases rest <;> simp [itemsBefore, Node.spelledItems]

theorem depth_fields_snoc (pairs : List (String × Node)) (name : String) (node : Node) :
    Node.depthFields (pairs ++ [(name, node)]) = max (Node.depthFields pairs) node.depth := by
  induction pairs with
  | nil => simp [Node.depthFields]
  | cons pair rest induction => rw [List.cons_append, Node.depthFields, induction, Node.depthFields,
      max_assoc]

theorem depth_items_snoc (items : List Node) (node : Node) :
    Node.depthItems (items ++ [node]) = max (Node.depthItems items) node.depth := by
  induction items with
  | nil => simp [Node.depthItems]
  | cons item rest induction => rw [List.cons_append, Node.depthItems, induction, Node.depthItems,
      max_assoc]

/-- The tokens that lead into the containers that wait for a value. -/
inductive Opened : List Frame → List Token → Prop
  | nil : Opened [] []
  | items {frames : List Frame} {read : List Token} (outer : Opened frames read) (items : List Node)
      (room : frames.length + (Node.depthItems items + 1) ≤ nestingLimit) :
      Opened (.items (Node.mergedItems items).reverse :: frames)
        (read ++ .openArray :: itemsBefore items)
  | entry {frames : List Frame} {read : List Token} (outer : Opened frames read)
      (pairs : List (String × Node)) (name : String)
      (room : frames.length + (Node.depthFields pairs + 1) ≤ nestingLimit) :
      Opened (.entry (Fields.merged pairs) name :: frames)
        (read ++ .openStruct :: (entriesBefore pairs ++ [.text name, .colon]))

/-- The tokens that lead to a state. -/
inductive Leads : State → List Token → Prop
  | value {frames : List Frame} {read : List Token} (outer : Opened frames read) :
      Leads ⟨.value, frames⟩ read
  | firstItem {frames : List Frame} {read : List Token} (outer : Opened frames read)
      (room : frames.length < nestingLimit) : Leads ⟨.firstItem, frames⟩ (read ++ [.openArray])
  | nextItem {frames : List Frame} {read : List Token} (outer : Opened frames read)
      (items : List Node) (nonempty : items ≠ [])
      (room : frames.length + (Node.depthItems items + 1) ≤ nestingLimit) :
      Leads ⟨.nextItem (Node.mergedItems items).reverse, frames⟩
        (read ++ .openArray :: (Node.spelledItems items ++ [.comma]))
  | afterItem {frames : List Frame} {read : List Token} (outer : Opened frames read)
      (items : List Node) (nonempty : items ≠ [])
      (room : frames.length + (Node.depthItems items + 1) ≤ nestingLimit) :
      Leads ⟨.afterItem (Node.mergedItems items).reverse, frames⟩
        (read ++ .openArray :: Node.spelledItems items)
  | firstName {frames : List Frame} {read : List Token} (outer : Opened frames read)
      (room : frames.length < nestingLimit) : Leads ⟨.firstName, frames⟩ (read ++ [.openStruct])
  | nextName {frames : List Frame} {read : List Token} (outer : Opened frames read)
      (pairs : List (String × Node)) (nonempty : pairs ≠ [])
      (room : frames.length + (Node.depthFields pairs + 1) ≤ nestingLimit) :
      Leads ⟨.nextName (Fields.merged pairs), frames⟩
        (read ++ .openStruct :: (Node.spelledFields pairs ++ [.comma]))
  | colon {frames : List Frame} {read : List Token} (outer : Opened frames read)
      (pairs : List (String × Node)) (name : String)
      (room : frames.length + (Node.depthFields pairs + 1) ≤ nestingLimit) :
      Leads ⟨.colon (Fields.merged pairs) name, frames⟩
        (read ++ .openStruct :: (entriesBefore pairs ++ [.text name]))
  | afterEntry {frames : List Frame} {read : List Token} (outer : Opened frames read)
      (pairs : List (String × Node)) (nonempty : pairs ≠ [])
      (room : frames.length + (Node.depthFields pairs + 1) ≤ nestingLimit) :
      Leads ⟨.afterEntry (Fields.merged pairs), frames⟩
        (read ++ .openStruct :: Node.spelledFields pairs)

/-- That tokens spell what a node is merged from, and do not nest it too deeply. -/
def SpelledOut (read : List Token) (node : Node) : Prop :=
  ∃ spelled : Node, read = spelled.spelled ∧ node = spelled.merged ∧ spelled.depth ≤ nestingLimit

def Step.LedBy (read : List Token) : Step → Prop
  | .running state => Leads state read
  | .finished node => SpelledOut read node
  | .refused _ => True

theorem deliver_led {frames : List Frame} {read : List Token} (opened : Opened frames read)
    (node : Node) (room : frames.length + node.depth ≤ nestingLimit) :
    (deliver node.merged frames).LedBy (read ++ node.spelled) := by
  cases opened with
  | nil => exact ⟨node, rfl, rfl, by simpa using room⟩
  | @items frames read outer items shallow =>
      have tokens : read ++ .openArray :: itemsBefore items ++ node.spelled =
          read ++ .openArray :: Node.spelledItems (items ++ [node]) := by
        rw [spelled_items_snoc, List.append_assoc, List.cons_append]
      have nodes : node.merged :: (Node.mergedItems items).reverse =
          (Node.mergedItems (items ++ [node])).reverse := by
        simp [Node.merged_items_map]
      rw [deliver, Step.LedBy, tokens, nodes]
      rw [List.length_cons] at room
      refine .afterItem outer _ (by simp) ?_
      rw [depth_items_snoc]
      omega
  | @entry frames read outer pairs name shallow =>
      have tokens : read ++ .openStruct :: (entriesBefore pairs ++ [.text name, .colon]) ++
          node.spelled = read ++ .openStruct :: Node.spelledFields (pairs ++ [(name, node)]) := by
        rw [spelled_fields_snoc]
        simp
      rw [deliver, Step.LedBy, tokens, ← Fields.merged_snoc]
      rw [List.length_cons] at room
      refine .afterEntry outer _ (by simp) ?_
      rw [depth_fields_snoc]
      omega

theorem begin_led {located : Located} {expect : Expect} {frames : List Frame} {read : List Token}
    (inside : frames.length < nestingLimit → Leads ⟨expect, frames⟩ read) :
    (begin located expect frames).LedBy read := by
  rw [begin]
  split_ifs with room
  · exact inside room
  · trivial

theorem Opened.limited {frames : List Frame} {read : List Token} (opened : Opened frames read) :
    frames.length ≤ nestingLimit := by
  cases opened with
  | nil => exact Nat.zero_le _
  | items outer items room =>
      rw [List.length_cons]
      omega
  | entry outer pairs name room =>
      rw [List.length_cons]
      omega

theorem take_value_led {frames : List Frame} {read : List Token} (opened : Opened frames read)
    (located : Located) : (takeValue located frames).LedBy (read ++ [located.token]) := by
  obtain ⟨token, start⟩ := located
  have scalar (node : Node) (flat : node.depth = 0) :=
    deliver_led opened node (by rw [flat]; exact opened.limited)
  cases token with
  | null => exact scalar .null rfl
  | bool value => exact scalar (.bool value) rfl
  | int value => exact scalar (.int value) rfl
  | uint value => exact scalar (.uint value) rfl
  | double value => exact scalar (.double value) rfl
  | text value => exact scalar (.text value) rfl
  | openStruct => exact begin_led fun room => .firstName opened room
  | openArray => exact begin_led fun room => .firstItem opened room
  | _ => trivial

theorem refuse_name_led (located : Located) (read : List Token) :
    (refuseName located).LedBy read := by
  rw [refuseName]
  split <;> trivial

/-- Each step is led to by the token that it takes. -/
theorem step_led {state : State} {read : List Token} (leads : Leads state read) (located : Located) :
    (step state located).LedBy (read ++ [located.token]) := by
  cases leads with
  | value outer =>
      rw [step]
      exact take_value_led outer located
  | @firstItem frames read outer room =>
      obtain ⟨token, start⟩ := located
      have opened := Opened.items outer [] room
      cases token with
      | closeArray =>
          have delivered := deliver_led outer (.array [] 0) room
          simpa [step, Node.spelled, Node.spelledItems, Node.merged, Node.mergedItems] using delivered
      | _ => exact take_value_led opened _
  | @nextItem frames read outer items nonempty room =>
      obtain ⟨token, start⟩ := located
      have opened := Opened.items outer items room
      rw [itemsBefore, if_neg nonempty] at opened
      cases token with
      | closeArray => trivial
      | _ => exact take_value_led opened _
  | @afterItem frames read outer items nonempty room =>
      obtain ⟨token, start⟩ := located
      cases token with
      | comma => simpa [step, Step.LedBy] using Leads.nextItem outer items nonempty room
      | closeArray =>
          have delivered := deliver_led outer (.array items 0) room
          simpa [step, Node.spelled, Node.merged] using delivered
      | _ => trivial
  | @firstName frames read outer room =>
      obtain ⟨token, start⟩ := located
      cases token with
      | text name =>
          have named := Leads.colon outer [] name room
          simpa [entriesBefore, step, Step.LedBy] using named
      | closeStruct =>
          have delivered := deliver_led outer (.struct []) room
          simpa [step, Node.spelled, Node.spelledFields] using delivered
      | _ =>
          rw [step]
          exact refuse_name_led _ _
  | @nextName frames read outer pairs nonempty room =>
      obtain ⟨token, start⟩ := located
      cases token with
      | text name =>
          simpa [entriesBefore, nonempty, step, Step.LedBy] using Leads.colon outer pairs name room
      | closeStruct => trivial
      | _ =>
          rw [step]
          exact refuse_name_led _ _
  | @colon frames read outer pairs name room =>
      obtain ⟨token, start⟩ := located
      cases token with
      | colon =>
          simpa [step, Step.LedBy] using Leads.value (Opened.entry outer pairs name room)
      | _ => trivial
  | @afterEntry frames read outer pairs nonempty room =>
      obtain ⟨token, start⟩ := located
      cases token with
      | comma => simpa [step, Step.LedBy] using Leads.nextName outer pairs nonempty room
      | closeStruct =>
          have delivered := deliver_led outer (.struct pairs) room
          simpa [step, Node.spelled] using delivered
      | _ => trivial

/-- What a run reads is spelled out by the tokens before the run and those that it takes. -/
theorem run_spelled {state : State} {read : List Token} (leads : Leads state read)
    {located rest : List Located} {node : Node} (ok : run state located = .ok (node, rest)) :
    ∃ own, located = own ++ rest ∧ SpelledOut (read ++ own.map Located.token) node := by
  induction located generalizing state read with
  | nil => cases ok
  | cons first others induction =>
      have led := step_led leads first
      rw [run_cons] at ok
      cases taken : step state first with
      | running next =>
          rw [taken] at ok led
          obtain ⟨own, rfl, spelled⟩ := induction led ok
          refine ⟨first :: own, rfl, ?_⟩
          simpa using spelled
      | finished made =>
          rw [taken] at ok led
          cases ok
          exact ⟨[first], rfl, led⟩
      | refused found =>
          rw [taken] at ok
          cases ok

end Json

/-- That the tokens of a text spell entries, of which several may have one name, with no more
containers than a text may nest. -/
structure Json.Tells [NumberReader] (text : String) (pairs : List (String × Node)) : Prop where
  spelled : Json.tokenized text.toList = (Node.struct pairs).spelled
  shallow : (Node.struct pairs).depth ≤ Json.nestingLimit

/-- A text is read exactly if it tells of some entries, and they are merged. -/
theorem Json.read_struct_iff [NumberReader] {text : String} {fields : Fields} :
    readStruct text = .ok fields ↔ ∃ pairs, Tells text pairs ∧ fields = Fields.merged pairs := by
  constructor
  · intro ok
    rw [readStruct] at ok
    split at ok
    · rename_i read rest leading
      cases rest with
      | cons next others => cases ok
      | nil =>
          cases ok
          obtain ⟨own, located, node, spelled, merged, shallow⟩ := run_spelled (.value .nil) leading
          rw [List.append_nil] at located
          obtain ⟨pairs, rfl⟩ : ∃ pairs, node = .struct pairs := by
            cases node <;> cases merged
            exact ⟨_, rfl⟩
          refine ⟨pairs, ⟨?_, shallow⟩, Node.struct.inj merged⟩
          rw [tokenized, located]
          exact spelled
    · cases ok
    · cases ok
  · rintro ⟨pairs, ⟨spelled, shallow⟩, rfl⟩
    obtain ⟨first, others, located, -, taken⟩ := node_taken (.struct pairs) _ spelled
    have ended := taken [] [] (by simpa using shallow)
    have leading : leadingValue text = .ok (.struct (Fields.merged pairs), []) := by
      rw [leadingValue, located, value_taken, ← List.append_nil others, ended]
      rfl
    rw [readStruct, leading]
    rfl

end Marshal
