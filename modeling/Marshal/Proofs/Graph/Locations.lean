import Marshal.Proofs.Graph.Describing

/-!
# Locations and their nodes

A location is known by the chain of suffixes that leads to it. Where the names of members and
settings are plain, the suffixes right below every location are plain and distinct; then no two
locations share a path, and the nodes of a graph are those of its locations.
-/

namespace Marshal

namespace Member

mutual

/-- The names that a member adds inside of structures. -/
def outputsShown (around : List String) : Member → List String
  | .field head _ => [head.name]
  | .extend _ base members =>
      if base ∈ around then [] else outputsShownAll (base :: around) members

def outputsShownAll (around : List String) : List Member → List String
  | [] => []
  | member :: rest => outputsShown around member ++ outputsShownAll around rest

end

mutual

theorem shown_suffixes (around : List String) (member : Member) :
    (member.shown around).map Prod.fst = (member.outputsShown around).map ("." ++ ·) := by
  cases member with
  | field head type => rfl
  | extend head base members =>
      rw [shown, outputsShown]
      split_ifs
      · rfl
      · exact shown_all_suffixes (base :: around) members

theorem shown_all_suffixes (around : List String) (members : List Member) :
    (shownAll around members).map Prod.fst = (outputsShownAll around members).map ("." ++ ·) := by
  cases members with
  | nil => rfl
  | cons member rest =>
      rw [shownAll, outputsShownAll, List.map_append, List.map_append, shown_suffixes,
        shown_all_suffixes]

end

mutual

theorem outputs_shown_sublist (around : List String) (member : Member) :
    (member.outputsShown around).Sublist member.outputs := by
  cases member with
  | field head type => exact .refl _
  | extend head base members =>
      rw [outputsShown, outputs]
      split_ifs
      · exact List.nil_sublist _
      · exact outputs_shown_all_sublist (base :: around) members

theorem outputs_shown_all_sublist (around : List String) (members : List Member) :
    (outputsShownAll around members).Sublist (outputsAll members) := by
  cases members with
  | nil => exact .refl _
  | cons member rest =>
      exact (outputs_shown_sublist around member).append (outputs_shown_all_sublist around rest)

end

mutual

/-- What a member shows are plain members of its. -/
theorem shown_types (around : List String) (member : Member) :
    ∀ part ∈ member.shown around, ∃ further, ∃ leaf ∈ member.leaves,
      part.2 = .type further leaf.type := by
  cases member with
  | field head type =>
      intro part inside
      obtain rfl := List.mem_singleton.mp inside
      exact ⟨around, _, List.mem_singleton_self _, rfl⟩
  | extend head base members =>
      intro part inside
      rw [shown] at inside
      split_ifs at inside
      · cases inside
      · obtain ⟨further, leaf, own, same⟩ := shown_all_types (base :: around) members part inside
        exact ⟨further, leaf.beneath head.path, List.mem_map_of_mem own, same⟩

theorem shown_all_types (around : List String) (members : List Member) :
    ∀ part ∈ shownAll around members, ∃ further, ∃ leaf ∈ leavesAll members,
      part.2 = .type further leaf.type := by
  cases members with
  | nil => exact fun _ inside => nomatch inside
  | cons member rest =>
      intro part inside
      rcases List.mem_append.mp inside with inside | inside
      · obtain ⟨further, leaf, own, same⟩ := shown_types around member part inside
        exact ⟨further, leaf, List.mem_append_left _ own, same⟩
      · obtain ⟨further, leaf, own, same⟩ := shown_all_types around rest part inside
        exact ⟨further, leaf, List.mem_append_right _ own, same⟩

end

end Member

namespace Schema

variable {schema : Schema}

section Unfolded

variable {drawing inner : Drawing} {parts : List (String × Drawing)}
variable {subject target : Subject} {subjects : List (String × Subject)} {suffix : String}
variable {chain : List String}

theorem Unfolds.caption (unfolds : schema.Unfolds drawing subject) :
    drawing.caption = schema.caption subject := by
  cases drawing with
  | node caption parts => exact unfolds.1

theorem UnfoldsAll.suffixes (unfolds : schema.UnfoldsAll parts subjects) :
    parts.map Prod.fst = subjects.map Prod.fst := by
  induction parts generalizing subjects with
  | nil =>
      obtain rfl : subjects = [] := unfolds
      rfl
  | cons part rest induction =>
      obtain ⟨subject, others, rfl, -, further⟩ := unfolds
      exact congrArg (List.cons part.1) (induction further)

theorem UnfoldsAll.shown (unfolds : schema.UnfoldsAll parts subjects)
    (inside : (suffix, drawing) ∈ parts) :
    ∃ subject, (suffix, subject) ∈ subjects ∧ schema.Unfolds drawing subject := by
  induction parts generalizing subjects with
  | nil => cases inside
  | cons part rest induction =>
      obtain ⟨subject, others, rfl, own, further⟩ := unfolds
      rcases List.mem_cons.mp inside with rfl | inside
      · exact ⟨subject, List.mem_cons_self, own⟩
      · obtain ⟨other, member, unfolds⟩ := induction further inside
        exact ⟨other, List.mem_cons_of_mem _ member, unfolds⟩

theorem UnfoldsAll.drawn (unfolds : schema.UnfoldsAll parts subjects)
    (inside : (suffix, subject) ∈ subjects) :
    ∃ drawing, (suffix, drawing) ∈ parts ∧ schema.Unfolds drawing subject := by
  induction parts generalizing subjects with
  | nil =>
      obtain rfl : subjects = [] := unfolds
      cases inside
  | cons part rest induction =>
      obtain ⟨first, others, rfl, own, further⟩ := unfolds
      rcases List.mem_cons.mp inside with same | inside
      · cases same
        exact ⟨part.2, List.mem_cons_self, own⟩
      · obtain ⟨drawing, member, unfolds⟩ := induction further inside
        exact ⟨drawing, List.mem_cons_of_mem _ member, unfolds⟩

theorem Unfolds.suffixes (unfolds : schema.Unfolds drawing subject) :
    drawing.parts.map Prod.fst = (schema.below subject).map Prod.fst := by
  cases drawing with
  | node caption parts => exact unfolds.2.suffixes

/-- Every place in a drawing is that of a location. -/
theorem Unfolds.located (unfolds : schema.Unfolds drawing subject)
    (leads : drawing.At chain inner) :
    ∃ target, schema.Below subject chain target ∧ schema.Unfolds inner target := by
  induction leads generalizing subject with
  | here => exact ⟨subject, .here, unfolds⟩
  | part inside _ induction =>
      obtain ⟨next, below, own⟩ := unfolds.2.shown inside
      obtain ⟨target, further, shown⟩ := induction own
      exact ⟨target, .step below further, shown⟩

/-- Every location has a place in the drawing. -/
theorem Unfolds.placed (unfolds : schema.Unfolds drawing subject)
    (leads : schema.Below subject chain target) :
    ∃ inner, drawing.At chain inner ∧ schema.Unfolds inner target := by
  induction leads generalizing drawing with
  | here => exact ⟨drawing, .here, unfolds⟩
  | step inside _ induction =>
      obtain ⟨caption, parts⟩ := drawing
      obtain ⟨next, part, own⟩ := unfolds.2.drawn inside
      obtain ⟨inner, further, shown⟩ := induction own
      exact ⟨inner, .part part further, shown⟩

end Unfolded

/-- That the suffixes right below a location are plain and distinct. -/
def Clear (schema : Schema) (subject : Subject) : Prop :=
  ((schema.below subject).map Prod.fst).Nodup ∧
    ∀ suffix ∈ (schema.below subject).map Prod.fst, Graph.PlainSuffix suffix

mutual

theorem Unfolds.plain {subject : Subject}
    (clear : ∀ chain target, schema.Below subject chain target → schema.Clear target)
    (drawing : Drawing) (unfolds : schema.Unfolds drawing subject) : drawing.Plain := by
  cases drawing with
  | node caption parts =>
      obtain ⟨distinct, plain⟩ := clear [] subject .here
      rw [← unfolds.2.suffixes] at distinct plain
      refine ⟨distinct, unfolds_all_plain ?_ parts unfolds.2 plain⟩
      exact fun part inside chain target leads => clear _ target (.step inside leads)

theorem unfolds_all_plain {subjects : List (String × Subject)}
    (clear : ∀ part ∈ subjects, ∀ chain target, schema.Below part.2 chain target →
      schema.Clear target)
    (parts : List (String × Drawing)) (unfolds : schema.UnfoldsAll parts subjects)
    (plain : ∀ suffix ∈ parts.map Prod.fst, Graph.PlainSuffix suffix) :
    Drawing.PlainAll parts := by
  cases parts with
  | nil => trivial
  | cons part rest =>
      obtain ⟨subject, others, rfl, own, further⟩ := unfolds
      rw [List.forall_mem_cons] at clear
      rw [List.map_cons, List.forall_mem_cons] at plain
      exact ⟨plain.1, own.plain clear.1 part.2, unfolds_all_plain clear.2 rest further plain.2⟩

end

section Names

/-- That all members of the structures that a type comes to have plain names. -/
def PlainlyNamed (schema : Schema) (type : Ty) : Prop :=
  ∀ name, schema.Part type (.record name) → ∀ leaf ∈ schema.leaves name, Graph.PlainName leaf.name

theorem PlainlyNamed.part {type part : Ty} (plain : schema.PlainlyNamed type)
    (inside : schema.Part type part) : schema.PlainlyNamed part :=
  fun name further => plain name (inside.trans further)

theorem slots_below (around : List String) (position : Nat) (slots : List Ty) :
    ∀ part ∈ slotsBelow around position slots, ∃ slot ∈ slots, part.2 = .type around slot := by
  induction slots generalizing position with
  | nil => exact fun _ inside => nomatch inside
  | cons slot rest induction =>
      intro part inside
      rcases List.mem_cons.mp inside with rfl | inside
      · exact ⟨slot, List.mem_cons_self, rfl⟩
      · obtain ⟨other, own, same⟩ := induction (position + 1) part inside
        exact ⟨other, List.mem_cons_of_mem _ own, same⟩

/-- What is described right below a type is part of it. -/
theorem types_below (around : List String) (type : Ty) :
    ∀ part ∈ schema.typesBelow around type, ∃ further inner,
      part.2 = .type further inner ∧ schema.Part type inner := by
  intro part inside
  cases type with
  | primitive scalar => cases inside
  | string => cases inside
  | textual name => cases inside
  | enumeration name => cases inside
  | record name =>
      rw [typesBelow] at inside
      split_ifs at inside
      · cases inside
      · split at inside
        · cases inside
        · rename_i members declared
          obtain ⟨further, leaf, own, same⟩ := Member.shown_all_types _ members part inside
          rw [← leaves_declared declared] at own
          exact ⟨further, leaf.type, same, .single (.member own)⟩
  | option inner =>
      obtain rfl := List.mem_singleton.mp inside
      exact ⟨around, inner, rfl, .single .content⟩
  | sequence kind item =>
      obtain rfl := List.mem_singleton.mp inside
      exact ⟨around, item, rfl, .single .item⟩
  | map kind key value =>
      have values : schema.Part (.map kind key value) value := .single .value
      rw [typesBelow] at inside
      split at inside
      · obtain rfl := List.mem_singleton.mp inside
        exact ⟨around, value, rfl, values⟩
      · rcases List.mem_cons.mp inside with rfl | inside
        · exact ⟨around, key, rfl, .single .key⟩
        · obtain rfl := List.mem_singleton.mp inside
          exact ⟨around, value, rfl, values⟩
  | tuple slots =>
      obtain ⟨slot, own, same⟩ := slots_below around 0 slots part inside
      exact ⟨around, slot, same, .single (.slot own)⟩
  | boxed inner =>
      obtain ⟨further, part, same, within⟩ := types_below around inner part inside
      exact ⟨further, part, same, .head .boxed within⟩

theorem slot_suffixes (around : List String) (position : Nat) (slots : List Ty) :
    (slotsBelow around position slots).map Prod.fst =
      ((List.range' position slots.length).map toString).map ("." ++ ·) := by
  induction slots generalizing position with
  | nil => rfl
  | cons slot rest induction =>
      rw [slotsBelow, List.map_cons, induction, List.length_cons, List.range'_succ, List.map_cons,
        List.map_cons]

theorem named_injective {left right : String} (same : "." ++ left = "." ++ right) : left = right := by
  have characters := congrArg String.toList same
  rw [String.toList_append, String.toList_append] at characters
  exact String.toList_inj.mp (List.append_cancel_left characters)

theorem number_digits (number : Nat) : (toString number).toList = Nat.toDigits 10 number :=
  Nat.toList_repr

theorem number_injective {left right : Nat} (same : toString left = toString right) :
    left = right := by
  have digits := congrArg String.toList same
  rw [number_digits, number_digits] at digits
  rw [← Nat.ofDigitChars_ten_toDigits (n := left), digits, Nat.ofDigitChars_ten_toDigits]

theorem plain_number (number : Nat) : Graph.PlainName (toString number) := by
  intro character inside opens
  rw [number_digits] at inside
  have digit := Nat.isDigit_of_mem_toDigits (by norm_num) (by norm_num) inside
  rcases opens with rfl | rfl | rfl <;> exact absurd digit (by decide)

/-- Distinct plain names make distinct plain suffixes. -/
theorem names_clear {names : List String} (distinct : names.Nodup)
    (plain : ∀ name ∈ names, Graph.PlainName name) :
    (names.map ("." ++ ·)).Nodup ∧
      ∀ suffix ∈ names.map ("." ++ ·), Graph.PlainSuffix suffix := by
  refine ⟨distinct.map fun _ _ same => named_injective same, ?_⟩
  intro suffix inside
  obtain ⟨name, known, rfl⟩ := List.mem_map.mp inside
  exact (plain name known).suffix

theorem members_clear (sound : schema.Sound) {name : String} {members : List Member}
    (declared : (schema.structureInfo name).members = .ok members) (around : List String)
    (plain : ∀ leaf ∈ schema.leaves name, Graph.PlainName leaf.name) :
    ((Member.shownAll around members).map Prod.fst).Nodup ∧
      ∀ suffix ∈ (Member.shownAll around members).map Prod.fst, Graph.PlainSuffix suffix := by
  have outputs : (schema.leaves name).map Leaf.name = Member.outputsAll members := by
    rw [leaves_declared declared, Member.leaves_all_names]
  have fewer := Member.outputs_shown_all_sublist around members
  rw [← outputs] at fewer
  rw [Member.shown_all_suffixes]
  apply names_clear (fewer.nodup (leaves_distinct sound name))
  intro output inside
  obtain ⟨leaf, own, rfl⟩ := List.mem_map.mp (fewer.subset inside)
  exact plain leaf own

theorem type_clear (sound : schema.Sound) (around : List String) (type : Ty)
    (plain : schema.PlainlyNamed type) : schema.Clear (.type around type) := by
  rw [Clear, below]
  cases type with
  | primitive scalar => simp [typesBelow]
  | string => simp [typesBelow]
  | textual name => simp [typesBelow]
  | enumeration name => simp [typesBelow]
  | record name =>
      rw [typesBelow]
      split_ifs
      · simp
      · split
        · simp
        · rename_i members declared
          exact members_clear sound declared (name :: around) (plain name .refl)
  | option inner => exact ⟨by simp [typesBelow], by simpa [typesBelow] using Graph.plain_content⟩
  | sequence kind item => exact ⟨by simp [typesBelow], by simpa [typesBelow] using Graph.plain_items⟩
  | map kind key value =>
      rw [typesBelow]
      split
      · exact names_clear (List.nodup_singleton "*") (by decide)
      · exact names_clear (by decide : ["key", "value"].Nodup) (by decide)
  | tuple slots =>
      rw [typesBelow, slot_suffixes]
      apply names_clear
      · exact (List.nodup_range' 1).map fun _ _ same => number_injective same
      · intro name inside
        obtain ⟨position, -, rfl⟩ := List.mem_map.mp inside
        exact plain_number position
  | boxed inner => exact type_clear sound around inner (plain.part (.single .boxed))

/-- That a location and all below it have plain names. -/
def SubjectNamed (schema : Schema) : Subject → Prop
  | .type _ type => schema.PlainlyNamed type
  | .settings entries =>
      entries.names.Nodup ∧
        ∀ entry ∈ entries, Graph.PlainName entry.1 ∧ schema.PlainlyNamed entry.2.type

variable {subject target : Subject} {chain : List String}

theorem SubjectNamed.clear (sound : schema.Sound) (named : schema.SubjectNamed subject) :
    schema.Clear subject := by
  cases subject with
  | type around type => exact type_clear sound around type named
  | settings entries =>
      obtain ⟨distinct, plain⟩ := named
      have suffixes : (schema.below (.settings entries)).map Prod.fst =
          entries.names.map ("." ++ ·) := by
        rw [below, Entries.names, List.map_map, List.map_map]
        rfl
      rw [Clear, suffixes]
      apply names_clear distinct
      intro name inside
      obtain ⟨entry, own, rfl⟩ := List.mem_map.mp inside
      exact (plain entry own).1

theorem SubjectNamed.below (named : schema.SubjectNamed subject) :
    ∀ part ∈ schema.below subject, schema.SubjectNamed part.2 := by
  intro part inside
  cases subject with
  | type around type =>
      obtain ⟨further, inner, same, within⟩ := types_below around type part inside
      rw [same]
      exact named.part within
  | settings entries =>
      obtain ⟨entry, own, rfl⟩ := List.mem_map.mp inside
      exact (named.2 entry own).2

theorem SubjectNamed.reached (named : schema.SubjectNamed subject)
    (leads : schema.Below subject chain target) : schema.SubjectNamed target := by
  induction leads with
  | here => exact named
  | step inside _ induction => exact induction (named.below _ inside)

end Names

section Nodes

/-- That a graph has one node for every location, and no other. -/
structure NodePerLocation (schema : Schema) (root : String) (subject : Subject) (graph : Graph) :
    Prop where
  apart : ∀ chain other target another, schema.Below subject chain target →
    schema.Below subject other another →
    Graph.pathOf root chain = Graph.pathOf root other → chain = other
  distinct : (graph.nodes.map Prod.fst).Nodup
  located : ∀ node, node ∈ graph.nodes ↔ ∃ chain target, schema.Below subject chain target ∧
    node = (Graph.pathOf root chain,
      Graph.segmentAlong root chain ++ ": " ++ schema.caption target)

variable {root : String} {subject : Subject} {drawing : Drawing}

theorem Unfolds.node_per_location (unfolds : schema.Unfolds drawing subject)
    (plain : drawing.Plain) :
    schema.NodePerLocation root subject (drawing.draw root .empty) where
  apart chain other target another leads further same := by
    obtain ⟨inner, place, -⟩ := unfolds.placed leads
    obtain ⟨otherInner, otherPlace, -⟩ := unfolds.placed further
    exact Graph.path_injective (place.plain plain).1 (otherPlace.plain plain).1 same
  distinct := by
    rw [Drawing.drawn_nodes root plain]
    exact Drawing.labels_distinct root root drawing plain
  located node := by
    rw [Drawing.drawn_nodes root plain, Drawing.mem_labels]
    constructor
    · rintro ⟨chain, inner, place, rfl⟩
      obtain ⟨target, leads, own⟩ := unfolds.located place
      exact ⟨chain, target, leads, by rw [own.caption]⟩
    · rintro ⟨chain, target, leads, rfl⟩
      obtain ⟨inner, place, own⟩ := unfolds.placed leads
      exact ⟨chain, inner, place, by rw [own.caption]⟩

/-- The edges from a location's node are those to the locations right below it, in their order. -/
theorem Unfolds.targets (unfolds : schema.Unfolds drawing subject) (plain : drawing.Plain)
    {chain : List String} {target : Subject} (leads : schema.Below subject chain target) :
    (drawing.draw root .empty).targets (Graph.pathOf root chain) =
      ((schema.below target).map Prod.fst).map fun suffix => Graph.pathOf root chain ++ suffix := by
  obtain ⟨inner, place, own⟩ := unfolds.placed leads
  have edges : (drawing.draw root .empty).edges = drawing.edges root := Drawing.draw_edges _ _ _
  rw [Graph.targets, edges, Drawing.edges_from plain place, ← own.suffixes, List.map_map,
    List.map_map]
  rfl

theorem graph_text_drawn {name root : String} {graph : Graph}
    (drawn : schema.graphInto name root .empty = (.ok (), graph)) :
    schema.graphText name root = .ok (graph.render root) := by
  rw [graphText, drawn]

theorem Pictures.node_per_location (sound : schema.Sound) {subject : Subject} {broken : Prop}
    {root : String} {step : Step Graph} {graph : Graph}
    (pictures : schema.Pictures subject broken [] root step) (named : schema.SubjectNamed subject)
    (drawn : step .empty = (.ok (), graph)) : schema.NodePerLocation root subject graph := by
  obtain ⟨drawing, unfolds, rfl⟩ := pictures.drawn drawn
  exact unfolds.node_per_location (unfolds.plain (fun _ _ leads => (named.reached leads).clear sound))

end Nodes

end Schema

end Marshal
