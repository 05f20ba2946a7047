import Marshal.Proofs.Graph.Locations

/-!
# The edges of structures

The node of a structure has an edge for every name that the structure writes, except for those of
an extension whose structure is being described around it: such an extension adds nothing, and
nothing marks where it would have been. The node of a structure inside of itself has no edges.
-/

namespace Marshal

namespace Member

mutual

/-- The structures that a member extends, those that they extend in turn included. -/
def bases : Member → List String
  | .field _ _ => []
  | .extend _ base members => base :: basesAll members

def basesAll : List Member → List String
  | [] => []
  | member :: rest => bases member ++ basesAll rest

end

end Member

namespace Schema

variable {schema : Schema}

mutual

/-- That a member extends by what the extended structures have declared. -/
def Extends (schema : Schema) : Member → Prop
  | .field _ _ => True
  | .extend _ base members =>
      (schema.structureInfo base).members = .ok members ∧ ExtendsAll schema members

def ExtendsAll (schema : Schema) : List Member → Prop
  | [] => True
  | member :: rest => Extends schema member ∧ ExtendsAll schema rest

end

theorem extends_all_iff {members : List Member} :
    schema.ExtendsAll members ↔ ∀ member ∈ members, schema.Extends member := by
  induction members with
  | nil => simp [ExtendsAll]
  | cons member rest induction => simp [ExtendsAll, induction]

theorem declared_extends (sound : schema.Sound) {name : String} {members : List Member}
    (declared : (schema.structureInfo name).members = .ok members) : schema.ExtendsAll members := by
  refine declared_induction sound (fun _ members => schema.ExtendsAll members)
    (fun name members _ extensions => ?_) declared
  rw [extends_all_iff]
  intro member inside
  cases member with
  | field head type => trivial
  | extend head base extended =>
      obtain ⟨-, -, same, further⟩ := extensions head base extended inside
      exact ⟨same, further⟩

mutual

/-- What an extended structure has declared is smaller than the member that extends it. -/
theorem bases_smaller (member : Member) (fromDeclared : schema.Extends member) :
    ∀ base ∈ member.bases, ∃ members, (schema.structureInfo base).members = .ok members ∧
      sizeOf members < sizeOf member := by
  cases member with
  | field head type => exact fun _ inside => nomatch inside
  | extend head base members =>
      obtain ⟨declared, further⟩ := fromDeclared
      intro other inside
      rw [Member.extend.sizeOf_spec]
      rcases List.mem_cons.mp inside with rfl | inside
      · exact ⟨members, declared, by omega⟩
      · obtain ⟨extended, same, smaller⟩ := bases_all_smaller members further other inside
        exact ⟨extended, same, by omega⟩

theorem bases_all_smaller (members : List Member) (fromDeclared : schema.ExtendsAll members) :
    ∀ base ∈ Member.basesAll members, ∃ extended,
      (schema.structureInfo base).members = .ok extended ∧ sizeOf extended < sizeOf members := by
  cases members with
  | nil => exact fun _ inside => nomatch inside
  | cons member rest =>
      obtain ⟨own, further⟩ := fromDeclared
      intro base inside
      rw [List.cons.sizeOf_spec]
      rcases List.mem_append.mp inside with inside | inside
      · obtain ⟨extended, same, smaller⟩ := bases_smaller member own base inside
        exact ⟨extended, same, by omega⟩
      · obtain ⟨extended, same, smaller⟩ := bases_all_smaller rest further base inside
        exact ⟨extended, same, by omega⟩

end

/-- No structure extends itself. -/
theorem base_not_within {name : String} {members : List Member}
    (declared : (schema.structureInfo name).members = .ok members)
    (fromDeclared : schema.ExtendsAll members) : name ∉ Member.basesAll members := by
  intro inside
  obtain ⟨extended, same, smaller⟩ := bases_all_smaller members fromDeclared name inside
  rw [declared] at same
  cases same
  exact Nat.lt_irrefl _ smaller

mutual

/-- A member that extends none of the structures around it shows all that it writes. -/
theorem outputs_shown_eq {around : List String} (member : Member)
    (fromDeclared : schema.Extends member) (apart : ∀ base ∈ member.bases, base ∉ around) :
    member.outputsShown around = member.outputs := by
  cases member with
  | field head type => rfl
  | extend head base members =>
      obtain ⟨declared, further⟩ := fromDeclared
      obtain ⟨own, others⟩ := List.forall_mem_cons.mp apart
      rw [Member.outputsShown, if_neg own, Member.outputs]
      apply outputs_shown_all_eq members further
      -- The extended structure is now around its own extensions, which cannot lead back to it.
      intro other inside visiting
      rcases List.mem_cons.mp visiting with rfl | visiting
      · exact base_not_within declared further inside
      · exact others other inside visiting

theorem outputs_shown_all_eq {around : List String} (members : List Member)
    (fromDeclared : schema.ExtendsAll members)
    (apart : ∀ base ∈ Member.basesAll members, base ∉ around) :
    Member.outputsShownAll around members = Member.outputsAll members := by
  cases members with
  | nil => rfl
  | cons member rest =>
      obtain ⟨own, others⟩ := List.forall_mem_append.mp apart
      rw [Member.outputsShownAll, Member.outputsAll,
        outputs_shown_eq member fromDeclared.1 own,
        outputs_shown_all_eq rest fromDeclared.2 others]

end

/-- The names that a structure writes. -/
def outputs (schema : Schema) (name : String) : List String :=
  match (schema.structureInfo name).members with
  | .error _ => []
  | .ok members => Member.outputsAll members

/-- The names that the graph shows of a structure that is described inside of others. -/
def outputsShown (schema : Schema) (around : List String) (name : String) : List String :=
  match (schema.structureInfo name).members with
  | .error _ => []
  | .ok members => Member.outputsShownAll (name :: around) members

/-- The structures that a structure extends, directly or through others. -/
def bases (schema : Schema) (name : String) : List String :=
  match (schema.structureInfo name).members with
  | .error _ => []
  | .ok members => Member.basesAll members

theorem all_outputs_shown (sound : schema.Sound) {around : List String} {name : String}
    (apart : ∀ base ∈ schema.bases name, base ∉ around) :
    schema.outputsShown around name = schema.outputs name := by
  rw [outputsShown, outputs]
  rw [bases] at apart
  split
  · rfl
  · rename_i members declared
    rw [declared] at apart
    have fromDeclared := declared_extends sound declared
    apply outputs_shown_all_eq members fromDeclared
    intro base inside visiting
    rcases List.mem_cons.mp visiting with rfl | visiting
    · exact base_not_within declared fromDeclared inside
    · exact apart base inside visiting

section Edges

variable {around : List String} {type : Ty} {inner : String}

theorem types_below_unboxed (around : List String) (type : Ty) :
    schema.typesBelow around type.unboxed = schema.typesBelow around type := by
  cases type with
  | boxed inner => exact types_below_unboxed around inner
  | _ => rfl

theorem type_caption_unboxed (around : List String) (type : Ty) :
    schema.typeCaption around type.unboxed = schema.typeCaption around type := by
  cases type with
  | boxed inner => exact type_caption_unboxed around inner
  | _ => rfl

theorem record_suffixes (record : type.unboxed = .record inner) (new : inner ∉ around) :
    (schema.below (.type around type)).map Prod.fst =
      (schema.outputsShown around inner).map ("." ++ ·) := by
  rw [below, ← types_below_unboxed, record, typesBelow, if_neg new, outputsShown]
  cases (schema.structureInfo inner).members with
  | error fault => rfl
  | ok members => exact Member.shown_all_suffixes _ _

theorem recursive_alone (record : type.unboxed = .record inner) (visiting : inner ∈ around) :
    schema.below (.type around type) = [] := by
  rw [below, ← types_below_unboxed, record, typesBelow, if_pos visiting]

end Edges

/-- The graph of a structure labels every location of a structure with its name. Where it is met
inside of itself, the label says so and there are no edges; elsewhere there is an edge for every
name that it writes, in order, without those of the extensions of structures around it. -/
theorem structure_edges (sound : schema.Sound) {name : String}
    (named : schema.PlainlyNamed (.record name)) (builds : ¬ schema.Broken (.record name))
    (root : String) :
    ∃ graph, schema.graphInto name root .empty = (.ok (), graph) ∧
      schema.graphText name root = .ok (graph.render root) ∧
      schema.NodePerLocation root (.type [] (.record name)) graph ∧
      ∀ chain around type inner,
        schema.Below (.type [] (.record name)) chain (.type around type) →
        type.unboxed = .record inner →
          let path := Graph.pathOf root chain
          let label := (schema.structureInfo inner).label
          let caption := schema.caption (.type around type)
          (inner ∈ around → caption = label ++ " (recursive)" ∧ graph.targets path = []) ∧
          (inner ∉ around → caption = label ∧
            graph.targets path =
              (schema.outputsShown around inner).map fun output => path ++ ("." ++ output)) ∧
          (inner ∉ around → (∀ base ∈ schema.bases inner, base ∉ around) →
            graph.targets path = (schema.outputs inner).map fun output => path ++ ("." ++ output)) := by
  have pictures : schema.Pictures (.type [] (.record name)) (schema.Broken (.record name)) [] root
      (schema.graphInto name root) := graph_into_pictures name root
  obtain ⟨graph, drawn⟩ := pictures.succeeds builds
  obtain ⟨drawing, unfolds, same⟩ := pictures.drawn drawn
  have start : schema.SubjectNamed (.type [] (.record name)) := named
  have plain := unfolds.plain fun _ _ leads => (start.reached leads).clear sound
  refine ⟨graph, drawn, graph_text_drawn drawn, pictures.node_per_location sound start drawn, ?_⟩
  intro chain around type inner leads record path label caption
  have targets : graph.targets path =
      ((schema.below (.type around type)).map Prod.fst).map fun suffix => path ++ suffix := by
    rw [same]
    exact unfolds.targets plain leads
  have captions : caption = schema.typeCaption around (.record inner) := by
    rw [← record, type_caption_unboxed]
    rfl
  have shown : inner ∉ around → graph.targets path =
      (schema.outputsShown around inner).map fun output => path ++ ("." ++ output) := by
    intro new
    rw [targets, record_suffixes record new, List.map_map]
    rfl
  refine ⟨fun visiting => ⟨?_, ?_⟩, fun new => ⟨?_, shown new⟩, fun new apart => ?_⟩
  · rw [captions, typeCaption, if_pos visiting]
  · rw [targets, recursive_alone record visiting]
    rfl
  · rw [captions, typeCaption, if_neg new]
  · rw [shown new, all_outputs_shown sound apart]

end Schema

namespace Necklace

def next : Ty := .option (.boxed (.record "Chain"))

def link : List MemberCall :=
  [.field ⟨"key", ⟨0, "key", .int .u8⟩, ["key"]⟩ (.int .u8),
    .field ⟨"next", ⟨8, "next", next⟩, ["next"]⟩ next]

def chain : List MemberCall :=
  [.extend ⟨"link", ⟨0, "link", .record "Link"⟩, ["link"]⟩ "Link" (Declaration.build "Link" link),
    .field ⟨"last", ⟨16, "last", .bool⟩, ["last"]⟩ .bool]

def linkFields : List (String × Ty) := [("key", .int .u8), ("next", next)]

def chainFields : List (String × Ty) := [("link", .record "Link"), ("last", .bool)]

def single : List (String × Val) := [("key", .int 0), ("next", .absent)]

def linkInfo : StructureInfo :=
  ⟨"Link", "Link", linkFields, [], .record single, Declaration.build "Link" link⟩

def chainInfo : StructureInfo :=
  ⟨"Chain", "Chain", chainFields, [], .record [("link", .record single), ("last", .bool false)],
    Declaration.build "Chain" chain⟩

/-- A link may be followed by a chain, which is a link with a mark. -/
def schema : Schema := ⟨[linkInfo, chainInfo], [], []⟩

theorem link_typed : schema.HasType (.record "Link") (.record single) := by
  apply Schema.HasType.record rfl
  intro field type known inner found
  have known : (field, type) ∈ linkFields := known
  simp only [linkFields, List.mem_cons, Prod.mk.injEq, List.not_mem_nil, or_false] at known
  rcases known with ⟨rfl, rfl⟩ | ⟨rfl, rfl⟩ <;> cases found
  · exact .int (by decide)
  · exact .absent

theorem chain_typed : schema.HasType (.record "Chain")
    (.record [("link", .record single), ("last", .bool false)]) := by
  apply Schema.HasType.record rfl
  intro field type known inner found
  have known : (field, type) ∈ chainFields := known
  simp only [chainFields, List.mem_cons, Prod.mk.injEq, List.not_mem_nil, or_false] at known
  rcases known with ⟨rfl, rfl⟩ | ⟨rfl, rfl⟩ <;> cases found
  · exact link_typed
  · exact .bool false

theorem link_sound : ∀ call ∈ link, schema.CallSound "Link" call := by
  simp only [link, List.forall_mem_cons, Schema.CallSound]
  exact ⟨⟨by simp, "Link", _, rfl, List.mem_cons_self, rfl⟩,
    ⟨by simp, "Link", _, rfl, List.mem_cons_of_mem _ List.mem_cons_self, rfl⟩, by simp⟩

theorem chain_sound : ∀ call ∈ chain, schema.CallSound "Chain" call := by
  simp only [chain, List.forall_mem_cons, Schema.CallSound]
  exact ⟨⟨by simp, ⟨"Chain", _, rfl, List.mem_cons_self, rfl⟩, rfl⟩,
    ⟨by simp, "Chain", _, rfl, List.mem_cons_of_mem _ List.mem_cons_self, rfl⟩, by simp⟩

theorem sound : schema.Sound := by
  have structures : schema.structures = [linkInfo, chainInfo] := rfl
  apply Schema.sound_of_structures rfl <;> rw [structures] <;> simp only [List.forall_mem_cons]
  · exact ⟨by decide, by decide, nofun⟩
  · exact ⟨link_typed, chain_typed, nofun⟩
  · exact ⟨⟨link, rfl, link_sound⟩, ⟨chain, rfl, chain_sound⟩, nofun⟩

/-- All types that a link or a chain is written in parts of. -/
theorem parts {type part : Ty} (either : type = .record "Link" ∨ type = .record "Chain")
    (inside : schema.Part type part) :
    part ∈ [.record "Link", .record "Chain", .int .u8, .bool, next, .boxed (.record "Chain")] := by
  induction inside with
  | refl => rcases either with rfl | rfl <;> simp
  | tail _ direct known =>
      simp only [List.mem_cons, List.not_mem_nil, or_false] at known
      rcases known with rfl | rfl | rfl | rfl | rfl | rfl
      · cases direct with
        | member inside =>
            have leaves : schema.leaves "Link" =
              [⟨"key", ["key"], .int .u8⟩, ⟨"next", ["next"], next⟩] := rfl
            rw [leaves] at inside
            simp only [List.mem_cons, List.not_mem_nil, or_false] at inside
            rcases inside with rfl | rfl <;> simp
      · cases direct with
        | member inside =>
            have leaves : schema.leaves "Chain" = [⟨"key", ["link", "key"], .int .u8⟩,
              ⟨"next", ["link", "next"], next⟩, ⟨"last", ["last"], .bool⟩] := rfl
            rw [leaves] at inside
            simp only [List.mem_cons, List.not_mem_nil, or_false] at inside
            rcases inside with rfl | rfl | rfl <;> simp
      · cases direct
      · cases direct
      · cases direct
        simp
      · cases direct
        simp

variable {type : Ty}

theorem records (either : type = .record "Link" ∨ type = .record "Chain") {name : String}
    (inside : schema.Part type (.record name)) : name = "Link" ∨ name = "Chain" := by
  simpa [next, Ty.int, Ty.bool] using parts either inside

theorem plainly_named (either : type = .record "Link" ∨ type = .record "Chain") :
    schema.PlainlyNamed type := by
  intro name inside
  rcases records either inside with rfl | rfl <;> decide

theorem builds (either : type = .record "Link" ∨ type = .record "Chain") :
    ¬ schema.Broken type := by
  rintro (⟨name, fault, inside, failed⟩ | ⟨name, fault, inside, failed⟩)
  · rcases records either inside with rfl | rfl <;> cases failed
  · simpa [next, Ty.int, Ty.bool] using parts either inside

end Necklace

namespace Schema

/-- The graph of a chain: the members of the link that it extends come before its own. -/
theorem structure_edges_chain :
    Necklace.schema.Sound ∧ Necklace.schema.PlainlyNamed (.record "Chain") ∧
      ¬ Necklace.schema.Broken (.record "Chain") ∧
      ∃ graph, Necklace.schema.graphInto "Chain" "Root" .empty = (.ok (), graph) ∧
        graph.targets "Root" = ["Root.key", "Root.next", "Root.last"] ∧
        graph.targets "Root.next?" = [] := by
  have named := Necklace.plainly_named (.inr rfl)
  have builds := Necklace.builds (.inr rfl)
  obtain ⟨graph, drawn, -, -, edges⟩ := structure_edges Necklace.sound named builds "Root"
  have inside : Necklace.schema.Below (.type [] (.record "Chain")) [".next", "?"]
      (.type ["Link", "Chain"] (.boxed (.record "Chain"))) :=
    .step (List.mem_cons_of_mem _ List.mem_cons_self) (.step List.mem_cons_self .here)
  obtain ⟨-, -, all⟩ := edges [] [] (.record "Chain") "Chain" .here rfl
  obtain ⟨recursive, -, -⟩ := edges _ _ _ "Chain" inside rfl
  exact ⟨Necklace.sound, named, builds, graph, drawn, all (by decide) (by decide),
    (recursive (by decide)).2⟩

/-- Below a link, a chain is labelled like any other and has no edges to what it shares with links. -/
theorem chain_hides_link_outputs :
    ¬ ∀ (schema : Schema) name root graph chain around type inner, schema.Sound →
      schema.PlainlyNamed (.record name) → ¬ schema.Broken (.record name) →
      schema.graphInto name root .empty = (.ok (), graph) →
      schema.Below (.type [] (.record name)) chain (.type around type) →
      type.unboxed = .record inner → inner ∉ around →
        graph.targets (Graph.pathOf root chain) =
          (schema.outputs inner).map fun output => Graph.pathOf root chain ++ ("." ++ output) := by
  intro claimed
  have outcome : (Necklace.schema.graphInto "Link" "Link" .empty).1 = .ok () := by decide +kernel
  have inside : Necklace.schema.Below (.type [] (.record "Link")) [".next", "?"]
      (.type ["Link"] (.boxed (.record "Chain"))) :=
    .step (List.mem_cons_of_mem _ List.mem_cons_self) (.step List.mem_cons_self .here)
  have targets := claimed Necklace.schema "Link" "Link" _ _ _ _ "Chain" Necklace.sound
    (Necklace.plainly_named (.inl rfl)) (Necklace.builds (.inl rfl)) (Prod.ext outcome rfl) inside rfl
    (by decide)
  have shown : (Necklace.schema.graphInto "Link" "Link" .empty).2.targets "Link.next?" =
      ["Link.next?.last"] := by decide +kernel
  have different := shown.symm.trans targets
  exact absurd different (by decide)

end Schema

end Marshal
