import Marshal.Proofs.Graph.Course
import Marshal.Proofs.Graph.Outputs
import Marshal.Proofs.Writing.Steps

/-!
# Descriptions come to an end

Types refer to structures and structures to types, in circles; but a structure is expanded only
where it is not on the stack, so whatever is described takes its course. The bound that descriptions
are computed with is never met: no rule that makes up a course mentions it.
-/

namespace Marshal.Schema

variable {schema : Schema} {around : List String}

/-- That a step describes what is asked for, inside of structures, in the course that it takes. -/
def Takes (schema : Schema) (topic : Topic) (around : List String) (step : Step Graph) : Prop :=
  ∀ graph, graph.visiting = around →
    ∃ inside, schema.Course topic graph inside (step graph).1 (step graph).2

section Steps

variable {topic : Topic} {step further : Step Graph} {path owner suffix name : String}
variable {type : Ty} {text : String} {describe : String → Step Graph}

theorem Takes.labelled {parts : List (String × Ty)} (shows : schema.Shows type text parts)
    (takes : schema.Takes (.parts parts path) around step) :
    schema.Takes (.type type path) around ((label path text).andThen step) := by
  intro graph visits
  obtain ⟨inside, course⟩ := takes (graph.node path text) visits
  exact ⟨inside, .labelled shows course⟩

theorem label_takes (shows : schema.Shows type text []) :
    schema.Takes (.type type path) around (label path text) :=
  fun _ _ => ⟨[], .labelled shows .no_parts⟩

/-- What comes next finds the stack that what comes first has found. -/
theorem Takes.part {rest : List (String × Ty)}
    (own : schema.Takes (.type type (owner ++ suffix)) around (describe (owner ++ suffix)))
    (others : schema.Takes (.parts rest owner) around further) :
    schema.Takes (.parts ((suffix, type) :: rest) owner) around
      ((within owner suffix describe).andThen further) := by
  intro graph visits
  obtain ⟨inside, course⟩ := own (graph.child owner suffix) visits
  have result : within owner suffix describe graph =
      describe (owner ++ suffix) (graph.child owner suffix) := rfl
  rw [Step.andThen, result]
  generalize describe (owner ++ suffix) (graph.child owner suffix) = first at course
  obtain ⟨fault | _, between⟩ := first
  · exact ⟨inside, .part_stops course⟩
  · obtain ⟨more, next⟩ := others between (course.balanced.trans visits)
    exact ⟨inside ++ more, .part course next⟩

theorem Takes.single
    (own : schema.Takes (.type type (owner ++ suffix)) around (describe (owner ++ suffix))) :
    schema.Takes (.parts [(suffix, type)] owner) around (within owner suffix describe) := by
  rw [← Step.and_then_done (within owner suffix describe)]
  exact own.part fun _ _ => ⟨[], .no_parts⟩

theorem Takes.field {head : MemberHead} {rest : List Member}
    (own : schema.Takes (.type type (owner ++ ("." ++ head.name))) around
      (describe (owner ++ ("." ++ head.name))))
    (others : schema.Takes (.members rest owner) around further) :
    schema.Takes (.members (.field head type :: rest) owner) around
      (((within owner ("." ++ head.name) describe).inField head.name).andThen further) := by
  intro graph visits
  obtain ⟨inside, course⟩ := own (graph.child owner ("." ++ head.name)) visits
  have result : within owner ("." ++ head.name) describe graph =
      describe (owner ++ ("." ++ head.name)) (graph.child owner ("." ++ head.name)) := rfl
  rw [Step.andThen, Step.inField, Step.map_fault_eq, result]
  generalize describe (owner ++ ("." ++ head.name)) (graph.child owner ("." ++ head.name)) = first
    at course
  obtain ⟨fault | _, between⟩ := first
  · exact ⟨inside, .field_stops course⟩
  · obtain ⟨more, next⟩ := others between (course.balanced.trans visits)
    exact ⟨inside ++ more, .field course next⟩

theorem Takes.extend {head : MemberHead} {base : String} {members rest : List Member}
    (own : schema.Takes (.extension base owner) around step)
    (others : schema.Takes (.members rest owner) around further) :
    schema.Takes (.members (.extend head base members :: rest) owner) around
      (step.andThen further) := by
  intro graph visits
  obtain ⟨inside, course⟩ := own graph visits
  rw [Step.andThen]
  generalize step graph = first at course
  obtain ⟨fault | _, between⟩ := first
  · exact ⟨inside, .extend_stops course⟩
  · obtain ⟨more, next⟩ := others between (course.balanced.trans visits)
    exact ⟨inside ++ more, .extend course next⟩

/-- The members of a structure enter the stack with it, unless it is there already. -/
theorem extension_takes
    (takes : name ∉ around → schema.Takes (.declared name owner) (name :: around) step) :
    schema.Takes (.extension name owner) around fun graph =>
      if graph.isVisiting name then (.ok (), graph) else entering name step graph := by
  intro graph visits
  simp only [Graph.isVisiting, List.contains_eq_mem, decide_eq_true_eq]
  by_cases visiting : name ∈ graph.visiting
  · rw [if_pos visiting]
    exact ⟨[], .passed visiting⟩
  · rw [if_neg visiting]
    obtain ⟨inside, course⟩ := takes (visits ▸ visiting) (graph.enter name)
      (congrArg (List.cons name) visits)
    exact ⟨[.node name inside], .extended visiting course⟩

end Steps

section Level

variable {deeper : String → String → Step Graph} {levels : Nat} {name : String}

/-- That structures take their course down to a number of levels. -/
def TakesDown (schema : Schema) (levels : Nat) (deeper : String → String → Step Graph) : Prop :=
  ∀ around name path, schema.remaining around < levels →
    schema.Takes (.object name path) around (deeper name path)

mutual

theorem describe_at_takes (down : schema.TakesDown levels deeper)
    (room : schema.remaining around < levels) (type : Ty) (path : String) :
    schema.Takes (.type type path) around (describeAt schema deeper type path) := by
  cases type with
  | primitive scalar => exact label_takes .primitive
  | string => exact label_takes .string
  | textual name => exact label_takes .textual
  | enumeration name =>
      rw [describeAt]
      split
      · rename_i fault failed
        exact fun graph _ => ⟨[], .tableless failed⟩
      · rename_i table built
        exact label_takes (.enumeration built)
  | record name =>
      intro graph visits
      obtain ⟨inside, course⟩ := down around name path room graph visits
      exact ⟨inside, .record course⟩
  | option inner => exact (describe_at_takes down room inner (path ++ "?")).single.labelled .option
  | sequence kind item =>
      exact (describe_at_takes down room item (path ++ "[]")).single.labelled .sequence
  | map kind key value =>
      have values := fun suffix => describe_at_takes down room value (path ++ suffix)
      rw [describeAt]
      cases named : schema.keyNaming? key with
      | some naming => exact (values ".*").single.labelled (.named_map named)
      | none =>
          have keys := describe_at_takes down room key (path ++ ".key")
          exact (keys.part (values ".value").single).labelled (.paired_map named)
  | tuple slots => exact (describe_slots_takes down room slots 0 path).labelled .tuple
  | boxed inner =>
      intro graph visits
      obtain ⟨inside, course⟩ := describe_at_takes down room inner path graph visits
      exact ⟨inside, .boxed course⟩

theorem describe_slots_takes (down : schema.TakesDown levels deeper)
    (room : schema.remaining around < levels) (slots : List Ty) (position : Nat) (path : String) :
    schema.Takes (.parts (slotParts position slots) path) around
      (describeSlots schema deeper position slots path) := by
  cases slots with
  | nil => exact fun _ _ => ⟨[], .no_parts⟩
  | cons slot rest =>
      have own := describe_at_takes down room slot (path ++ ("." ++ toString position))
      exact own.part (describe_slots_takes down room rest (position + 1) path)

end

/-- Members take their course, each extension with what the extended structure has declared. -/
theorem describe_members_takes {around : List String} (down : schema.TakesDown levels deeper)
    (room : schema.remaining around < levels) (owner : String) (members : List Member)
    (fromDeclared : schema.ExtendsAll members) :
    schema.Takes (.members members owner) around (describeMembers schema deeper owner members) := by
  match members, fromDeclared with
  | [], _ => exact fun _ _ => ⟨[], .no_members⟩
  | .field head type :: rest, ⟨_, further⟩ =>
      have own := describe_at_takes down room type (owner ++ ("." ++ head.name))
      exact own.field (describe_members_takes down room owner rest further)
  | .extend head base extended :: rest, ⟨⟨built, inner⟩, further⟩ =>
      have entered : base ∉ around → schema.Takes (.declared base owner) (base :: around)
          (describeMembers schema deeper owner extended) := by
        intro _ graph visits
        have less := (remaining_le base).trans_lt room
        obtain ⟨inside, course⟩ :=
          describe_members_takes down less owner extended inner graph visits
        exact ⟨inside, .declared built course⟩
      exact (extension_takes entered).extend (describe_members_takes down room owner rest further)

/-- What a structure has declared takes its course once the structure is on the stack. -/
theorem describe_declared_takes (sound : schema.Sound) (down : schema.TakesDown levels deeper)
    (new : name ∉ around) (room : schema.remaining around < levels + 1) (owner : String) :
    schema.Takes (.declared name owner) (name :: around)
      (describeDeclared schema deeper name owner) := by
  intro graph visits
  rw [describeDeclared]
  cases declared : (schema.structureInfo name).members with
  | error fault => exact ⟨[], .undeclared declared⟩
  | ok members =>
      -- A structure that is not described may come when no levels are left, but has no members.
      by_cases known : name ∈ schema.structures.map StructureInfo.name
      · have less := remaining_lt known new
        obtain ⟨inside, course⟩ := describe_members_takes down
          (show schema.remaining (name :: around) < levels by omega) owner members
          (declared_extends sound declared) graph visits
        exact ⟨inside, .declared declared course⟩
      · have none : members = [] := by
          rw [unknown_empty known] at declared
          exact (Except.ok.inj declared).symm
        subst none
        exact ⟨[], .declared declared .no_members⟩

end Level

theorem describe_structure_takes (sound : schema.Sound) (levels : Nat) :
    schema.TakesDown levels (describeStructure schema levels) := by
  induction levels with
  | zero => exact fun _ _ _ room => absurd room (Nat.not_lt_zero _)
  | succ levels induction =>
      intro around name path room graph visits
      simp only [describeStructure, Graph.isVisiting, List.contains_eq_mem, decide_eq_true_eq]
      by_cases visiting : name ∈ graph.visiting
      · rw [if_pos visiting]
        exact ⟨[], .recursive visiting⟩
      · rw [if_neg visiting]
        obtain ⟨inside, course⟩ := describe_declared_takes sound induction (visits ▸ visiting) room
          path ((graph.node path (schema.structureInfo name).label).enter name)
          (congrArg (List.cons name) visits)
        exact ⟨[.node name inside], .expanded visiting course⟩

/-- That a description has come to an end: its only course leads to its result, leaves the stack
as it was, and expands no structure inside of itself nor inside of those on the stack. -/
structure Ends (schema : Schema) (topic : Topic) (graph : Graph)
    (result : Except Fault Unit × Graph) : Prop where
  course : ∃ inside, schema.Course topic graph inside result.1 result.2 ∧
    Expansion.ApartAll graph.visiting inside
  alone : ∀ inside outcome left, schema.Course topic graph inside outcome left →
    result = (outcome, left)
  balanced : result.2.visiting = graph.visiting

theorem Takes.ends {topic : Topic} {step : Step Graph} {graph : Graph}
    (takes : schema.Takes topic graph.visiting step) : schema.Ends topic graph (step graph) := by
  obtain ⟨inside, course⟩ := takes graph rfl
  refine ⟨⟨inside, course, course.apart⟩, fun other outcome left again => ?_, course.balanced⟩
  obtain ⟨-, same, rest⟩ := course.unique again
  exact Prod.ext same rest

/-- Whatever is described comes to an end, from every graph and with every stack: types, structures,
and the members of a structure below a node of someone else's. -/
theorem descriptions_end (sound : schema.Sound) (graph : Graph) (path : String) :
    (∀ type, schema.Ends (.type type path) graph (schema.describe type path graph)) ∧
    ∀ name, schema.Ends (.object name path) graph (schema.graphInto name path graph) ∧
      schema.Ends (.extension name path) graph (schema.graphMembers name path graph) := by
  have down := describe_structure_takes sound schema.graphLevels
  have room : schema.remaining graph.visiting < schema.graphLevels := remaining_graph_levels
  refine ⟨fun type => (describe_at_takes down room type path).ends, fun name => ⟨?_, ?_⟩⟩
  · exact (down graph.visiting name path room).ends
  · have declared : name ∉ graph.visiting → schema.Takes (.declared name path)
        (name :: graph.visiting)
        (describeDeclared schema (describeStructure schema schema.graphLevels) name path) :=
      fun new => describe_declared_takes sound down new (room.trans (Nat.lt_succ_self _)) path
    exact (extension_takes declared).ends

/-- A link may be followed by a chain, which extends a link: the graph of a link comes to an end, and
so does that of a chain inside of a link, where the extension is passed over. -/
theorem descriptions_end_link :
    Necklace.schema.Sound ∧
      Necklace.schema.Ends (.object "Link" "Root") .empty
        (Necklace.schema.graphInto "Link" "Root" .empty) ∧
      (Necklace.schema.graphInto "Link" "Root" .empty).1 = .ok () ∧
      (Necklace.schema.graphInto "Chain" "Root" (Graph.empty.enter "Link")).2.visiting =
        ["Link"] := by
  obtain ⟨link, -⟩ := (descriptions_end Necklace.sound .empty "Root").2 "Link"
  obtain ⟨chain, -⟩ := (descriptions_end Necklace.sound (Graph.empty.enter "Link") "Root").2 "Chain"
  exact ⟨Necklace.sound, link, by decide +kernel, chain.balanced⟩

end Marshal.Schema
