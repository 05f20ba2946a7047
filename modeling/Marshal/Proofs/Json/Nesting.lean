import Marshal.Proofs.Json.RoundTrip

/-!
# Documents that no text can nest

A document that nests more containers than a text may is printed all the same, and its text is
refused where the first container goes too deep. So of the documents that can be printed exactly
those are read again that stay within the limit.
-/

namespace Marshal

namespace Json

/-- A printed value is refused under as many containers as do not leave room for its own. -/
def TooDeep [NumberReader] (printed : List Char) (depth : Nat) (rest : List Char) : Prop :=
  ∃ first others, tokens (printed ++ rest) = first :: others ∧ first.token ≠ .closeArray ∧
    ∀ frames : List Frame, frames.length ≤ nestingLimit → nestingLimit < frames.length + depth →
      ∃ left, resume (takeValue first frames) others = .error ⟨.tooDeep, left⟩

/-- Where a container is refused at once and where it is refused for its contents. -/
theorem container_refused {located : Located} {others : List Located} {expect : Expect}
    {frames : List Frame}
    (inside : frames.length < nestingLimit →
      ∃ left, run ⟨expect, frames⟩ others = .error ⟨.tooDeep, left⟩) :
    ∃ left, resume (begin located expect frames) others = .error ⟨.tooDeep, left⟩ := by
  by_cases room : frames.length < nestingLimit
  · rw [begin, if_pos room]
    exact inside room
  · rw [begin, if_neg room]
    exact ⟨_, rfl⟩

variable {spacing : Spacing} [NumberReader]

/-- A value without containers always has room. -/
theorem ReadsAs.flat {printed rest : List Char} {node : Node} (reads : ReadsAs printed node 0 rest) :
    TooDeep printed 0 rest := by
  obtain ⟨first, others, scanned, value, -⟩ := reads
  exact ⟨first, others, scanned, value, fun frames room deep => absurd room (by omega)⟩

mutual

/-- The text of a document is refused wherever it has no room. A container that has room itself is
refused for the first of its parts that has none; the parts before that one are read. -/
theorem node_refused (blank : spacing.Blank) (node : Node) (level : Nat) (rest : List Char)
    (distinct : node.namesDistinct = true) (back : node.DoublesReadBack)
    (ends : endsNumber rest = true) : TooDeep (render spacing level node) node.depth rest := by
  have reads := node_reads blank node level rest distinct back ends
  cases node with
  | struct fields =>
      cases fields with
      | nil =>
          obtain ⟨start, opened⟩ := tokens_mark '\x7b' .openStruct ('\x7d' :: rest) rfl rfl
          refine ⟨_, _, opened, by simp, ?_⟩
          intro frames _ deep
          exact container_refused fun room => absurd room (by
            have deep : nestingLimit < frames.length + 1 := deep
            omega)
      | cons field more =>
          obtain ⟨start, opened⟩ := struct_begins level rest field more
          simp only [Node.namesDistinct, Bool.and_eq_true, decide_eq_true_eq] at distinct
          refine ⟨_, _, opened, by simp, ?_⟩
          intro frames _ deep
          exact container_refused fun room => fields_refused blank (field :: more) (level + 1) level
            rest distinct.2 back [] distinct.1 .firstName (.inr ⟨rfl, rfl⟩) frames room deep
  | array items cursor =>
      cases items with
      | nil =>
          obtain ⟨start, opened⟩ := tokens_mark '[' .openArray (']' :: rest) rfl rfl
          refine ⟨_, _, opened, by simp, ?_⟩
          intro frames _ deep
          exact container_refused fun room => absurd room (by
            have deep : nestingLimit < frames.length + 1 := deep
            omega)
      | cons item more =>
          obtain ⟨start, opened⟩ := array_begins level rest item more cursor
          refine ⟨_, _, opened, by simp, ?_⟩
          intro frames _ deep
          exact container_refused fun room => items_refused blank (item :: more) (level + 1) level
            rest distinct back [] .firstItem (.inr ⟨rfl, rfl⟩) frames room deep
  | _ => exact reads.flat

theorem fields_refused (blank : spacing.Blank) (fields : List (String × Node)) (level outer : Nat)
    (rest : List Char) (distinct : Node.namesDistinctFields fields = true)
    (back : Node.DoublesReadBackFields fields) (done : Fields)
    (fresh : (done.names ++ Fields.names fields).Nodup) (expect : Expect)
    (expected : expect = .nextName done ∨ expect = .firstName ∧ done = []) (frames : List Frame)
    (room : frames.length < nestingLimit)
    (deep : nestingLimit < frames.length + (Node.depthFields fields + 1)) :
    ∃ left, run ⟨expect, frames⟩
        (tokens (renderFields spacing level fields ++ (spacing.line outer ++ '\x7d' :: rest))) =
      .error ⟨.tooDeep, left⟩ := by
  cases fields with
  | nil => exact absurd deep (by rw [Node.depthFields]; omega)
  | cons field more =>
      obtain ⟨name, node⟩ := field
      simp only [Node.namesDistinctFields, Bool.and_eq_true] at distinct
      rw [Node.depthFields] at deep
      have ends := fields_left_ends level outer rest blank more
      by_cases fits : (Frame.entry done name :: frames).length + node.depth ≤ nestingLimit
      · obtain ⟨first, others, scanned, -, taken⟩ := node_reads blank node level
          (fieldsLeft spacing level outer more rest) distinct.1 back.1 ends
        have absent : name ∉ done.names := by
          intro present
          exact (List.nodup_append.mp fresh).2.2 _ present _ List.mem_cons_self rfl
        rw [field_begins level outer rest blank expected scanned, taken _ fits, deliver, resume,
          Fields.put_absent absent]
        rw [List.length_cons] at fits
        cases more with
        | nil => exact absurd deep (by rw [Node.depthFields]; omega)
        | cons other more =>
            rw [fields_go_on]
            exact fields_refused blank (other :: more) level outer rest distinct.2 back.2
              (done ++ [(name, node.asRead)]) (by simpa [Fields.names] using fresh) _ (.inl rfl)
              frames room (by omega)
      · obtain ⟨first, others, scanned, -, refused⟩ := node_refused blank node level
          (fieldsLeft spacing level outer more rest) distinct.1 back.1 ends
        rw [field_begins level outer rest blank expected scanned]
        exact refused _ room (by omega)

theorem items_refused (blank : spacing.Blank) (items : List Node) (level outer : Nat)
    (rest : List Char) (distinct : Node.namesDistinctItems items = true)
    (back : Node.DoublesReadBackItems items) (reversed : List Node) (expect : Expect)
    (expected : expect = .nextItem reversed ∨ expect = .firstItem ∧ reversed = [])
    (frames : List Frame) (room : frames.length < nestingLimit)
    (deep : nestingLimit < frames.length + (Node.depthItems items + 1)) :
    ∃ left, run ⟨expect, frames⟩
        (tokens (renderItems spacing level items ++ (spacing.line outer ++ ']' :: rest))) =
      .error ⟨.tooDeep, left⟩ := by
  cases items with
  | nil => exact absurd deep (by rw [Node.depthItems]; omega)
  | cons node more =>
      simp only [Node.namesDistinctItems, Bool.and_eq_true] at distinct
      rw [Node.depthItems] at deep
      have ends := items_left_ends level outer rest blank more
      by_cases fits : (Frame.items reversed :: frames).length + node.depth ≤ nestingLimit
      · obtain ⟨first, others, scanned, value, taken⟩ := node_reads blank node level
          (itemsLeft spacing level outer more rest) distinct.1 back.1 ends
        rw [item_begins level outer rest blank expected scanned value, taken _ fits, deliver, resume]
        rw [List.length_cons] at fits
        cases more with
        | nil => exact absurd deep (by rw [Node.depthItems]; omega)
        | cons other more =>
            rw [items_go_on]
            exact items_refused blank (other :: more) level outer rest distinct.2 back.2
              (node.asRead :: reversed) _ (.inl rfl) frames room (by omega)
      · obtain ⟨first, others, scanned, value, refused⟩ := node_refused blank node level
          (itemsLeft spacing level outer more rest) distinct.1 back.1 ends
        rw [item_begins level outer rest blank expected scanned value]
        exact refused _ room (by omega)

end

/-- The text of a struct that is nested too deeply is refused for that. -/
theorem read_struct_too_deep (fields : Fields) (distinct : (Node.struct fields).namesDistinct = true)
    (back : (Node.struct fields).DoublesReadBack)
    (deep : nestingLimit < (Node.struct fields).depth) :
    ∃ place, readStruct (prettyText (.struct fields)) = .error (.malformed .tooDeep place) := by
  obtain ⟨first, others, scanned, -, refused⟩ :=
    node_refused Spacing.pretty_blank (.struct fields) 0 [] distinct back rfl
  obtain ⟨left, stopped⟩ := refused [] (Nat.zero_le _) (by simpa using deep)
  have leading : leadingValue (prettyText (.struct fields)) = .error ⟨.tooDeep, left⟩ := by
    rw [List.append_nil] at scanned
    rw [leadingValue, prettyText, String.toList_ofList, scanned, value_taken, stopped]
  unfold readStruct
  rw [leading]
  exact ⟨_, rfl⟩

end Json

/-- Only documents with finite doubles are dumped, and then to their printed text. -/
theorem Fields.dump_ok {fields : Fields} {text : String} (dumped : fields.dump = .ok text) :
    (Node.struct fields).doublesFinite = true ∧ text = Json.prettyText (.struct fields) := by
  rw [dump] at dumped
  split at dumped
  · cases dumped
  · rename_i none
    cases dumped
    exact ⟨(Node.first_non_finite_field_none fields).mp none, rfl⟩

/-- Of the documents that can be dumped, and whose doubles are read back, those are read again that no
text nests too deeply. -/
theorem Fields.dumped_text_read [Json.NumberReader] {fields : Fields} {text : String}
    (distinct : (Node.struct fields).namesDistinct = true) (dumped : fields.dump = .ok text)
    (back : (Node.struct fields).DoublesReadBack) (document : Fields) :
    ((Node.struct fields).depth ≤ Json.nestingLimit →
      document.setText text = (.ok (), Node.asReadFields fields)) ∧
    (Json.nestingLimit < (Node.struct fields).depth →
      ∃ place, document.setText text =
        (.error (.of (.unreadableText (.malformed .tooDeep place))), document)) := by
  obtain ⟨-, rfl⟩ := dump_ok dumped
  constructor
  · intro shallow
    rw [setText, Json.read_struct_pretty fields distinct back shallow]
  · intro deep
    obtain ⟨place, refused⟩ := Json.read_struct_too_deep fields distinct back deep
    exact ⟨place, by rw [setText, refused]⟩

end Marshal
