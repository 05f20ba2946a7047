import Marshal.Proofs.Graph.Nodes
import Marshal.Proofs.Graph.Outputs
import Mathlib.Logic.Relation

/-!
# Graphs without loose ends

A child's edge is drawn before the child is labelled, and the label is left to whoever describes the
child. In the graph of a type or a registry both ends of every edge are labelled all the same, every
path once, and along the edges every node is reached from the root.
-/

namespace Marshal

namespace Graph

def paths (graph : Graph) : List String := graph.nodes.map Prod.fst

/-- The edges lead from labelled nodes to labelled nodes, and from the root to all of them. -/
structure Connected (graph : Graph) (root : String) : Prop where
  rooted : root ∈ graph.paths
  distinct : graph.paths.Nodup
  labelled : ∀ edge ∈ graph.edges, edge.1 ∈ graph.paths ∧ edge.2 ∈ graph.paths
  entered : ∀ path ∈ graph.paths, path ≠ root → ∃ edge ∈ graph.edges, edge.2 = path
  reached : ∀ path ∈ graph.paths,
    Relation.ReflTransGen (fun owner child => (owner, child) ∈ graph.edges) root path

theorem mem_relabel (path label known : String) (nodes : List (String × String)) :
    known ∈ (relabel path label nodes).map Prod.fst ↔ known = path ∨ known ∈ nodes.map Prod.fst := by
  induction nodes with
  | nil => simp [relabel]
  | cons node rest induction =>
      rw [relabel]
      split_ifs with same
      · simp [same]
      · simp [induction, or_left_comm]

theorem relabel_distinct (path label : String) {nodes : List (String × String)}
    (distinct : (nodes.map Prod.fst).Nodup) : ((relabel path label nodes).map Prod.fst).Nodup := by
  induction nodes with
  | nil => simp [relabel]
  | cons node rest induction =>
      rw [relabel]
      obtain ⟨fresh, further⟩ := List.nodup_cons.mp distinct
      split_ifs with same
      · exact distinct
      · refine List.nodup_cons.mpr ⟨fun inside => ?_, induction further⟩
        rcases (mem_relabel path label node.1 rest).mp inside with own | inside
        · exact same own
        · exact fresh inside

end Graph

namespace Drawing

mutual

/-- A drawing labels the paths of its locations and no others. -/
theorem mem_draw_paths (path segment known : String) (graph : Graph) (drawing : Drawing) :
    known ∈ (draw path graph drawing).paths ↔
      known ∈ graph.paths ∨ known ∈ (labels path segment drawing).map Prod.fst := by
  cases drawing with
  | node caption parts =>
      rw [draw, labels, mem_draw_all_paths path segment, Graph.paths, Graph.node, Graph.mem_relabel,
        List.map_cons, List.mem_cons, Graph.paths, or_left_comm, or_assoc]

theorem mem_draw_all_paths (owner segment known : String) (graph : Graph)
    (parts : List (String × Drawing)) :
    known ∈ (drawAll owner graph parts).paths ↔
      known ∈ graph.paths ∨ known ∈ (labelsAll owner segment parts).map Prod.fst := by
  cases parts with
  | nil => simp [drawAll, labelsAll]
  | cons part rest =>
      obtain ⟨suffix, drawing⟩ := part
      have child : (graph.child owner suffix).paths = graph.paths := rfl
      rw [drawAll, labelsAll, mem_draw_all_paths owner segment,
        mem_draw_paths (owner ++ suffix) (Graph.segmentAfter segment suffix), child, List.map_append,
        List.mem_append, or_assoc]

end

theorem drawn_paths (root known : String) (drawing : Drawing) :
    known ∈ (draw root .empty drawing).paths ↔
      ∃ chain inner, At drawing chain inner ∧ known = Graph.pathOf root chain := by
  have none : known ∉ Graph.empty.paths := List.not_mem_nil
  rw [mem_draw_paths root root, or_iff_right none, List.mem_map]
  constructor
  · rintro ⟨label, inside, rfl⟩
    obtain ⟨chain, inner, leads, rfl⟩ := (mem_labels root root drawing label).mp inside
    exact ⟨chain, inner, leads, rfl⟩
  · rintro ⟨chain, inner, leads, rfl⟩
    exact ⟨_, (mem_labels root root drawing _).mpr ⟨chain, inner, leads, rfl⟩, rfl⟩

mutual

theorem draw_distinct (path : String) (graph : Graph) (drawing : Drawing)
    (distinct : graph.paths.Nodup) : (draw path graph drawing).paths.Nodup := by
  cases drawing with
  | node caption parts =>
      exact draw_all_distinct path _ parts (Graph.relabel_distinct path _ distinct)

theorem draw_all_distinct (owner : String) (graph : Graph) (parts : List (String × Drawing))
    (distinct : graph.paths.Nodup) : (drawAll owner graph parts).paths.Nodup := by
  cases parts with
  | nil => exact distinct
  | cons part rest =>
      rw [drawAll]
      have drawn := draw_distinct (owner ++ part.1) (graph.child owner part.1) part.2 distinct
      exact draw_all_distinct owner _ rest drawn

end

/-- The edges of a drawing lead from its root to every location. -/
theorem At.reached {drawing inner : Drawing} {chain : List String} (leads : At drawing chain inner)
    (path : String) {drawn : List (String × String)}
    (among : ∀ edge ∈ edges path drawing, edge ∈ drawn) :
    Relation.ReflTransGen (fun owner child => (owner, child) ∈ drawn) path
      (Graph.pathOf path chain) := by
  induction leads generalizing path with
  | here => exact .refl
  | @part caption suffix parts drawing inner chain inside further induction =>
      have first : (path, path ++ suffix) ∈ drawn :=
        among _ ((mem_edges_all path parts _).mpr ⟨_, inside, .inl rfl⟩)
      refine .head first (induction (path ++ suffix) fun edge own => among edge ?_)
      exact (mem_edges_all path parts edge).mpr ⟨_, inside, .inr own⟩

/-- Whatever is drawn into an empty graph is connected. -/
theorem drawn_connected (root : String) (drawing : Drawing) :
    (draw root .empty drawing).Connected root := by
  have drawn : (draw root .empty drawing).edges = edges root drawing :=
    draw_edges root .empty drawing
  have reached : ∀ path ∈ (draw root .empty drawing).paths, Relation.ReflTransGen
      (fun owner child => (owner, child) ∈ (draw root .empty drawing).edges) root path := by
    intro path inside
    obtain ⟨chain, inner, leads, rfl⟩ := (drawn_paths root path drawing).mp inside
    exact leads.reached root fun edge own => drawn ▸ own
  refine ⟨?_, draw_distinct root .empty drawing .nil, fun edge inside => ?_, ?_, reached⟩
  · exact (drawn_paths root root drawing).mpr ⟨[], drawing, .here, rfl⟩
  · rw [drawn] at inside
    rw [drawn_paths, drawn_paths]
    exact edge_ends root drawing inside
  · intro path inside other
    rcases (reached path inside).cases_tail with same | ⟨owner, -, last⟩
    · exact absurd same other
    · exact ⟨_, last, rfl⟩

end Drawing

namespace Settings

theorem graph_ok {schema : Schema} {settings : Settings} {text : String}
    (answered : settings.graph schema = .ok text) :
    ∃ graph, settings.draw schema .empty = (.ok (), graph) ∧
      text = graph.render graphRoot := by
  rw [Settings.graph] at answered
  split at answered
  · rename_i graph drawn
    exact ⟨graph, drawn, (Except.ok.inj answered).symm⟩
  · cases answered

end Settings

namespace Schema

variable {schema : Schema}

theorem graph_text_ok {name root text : String} (answered : schema.graphText name root = .ok text) :
    ∃ graph, schema.graphInto name root .empty = (.ok (), graph) ∧ text = graph.render root := by
  rw [graphText] at answered
  split at answered
  · rename_i graph drawn
    exact ⟨graph, drawn, (Except.ok.inj answered).symm⟩
  · cases answered

/-- The members of a structure below a root that is labelled by someone else. -/
theorem graph_members_drawn {name root text : String} {graph : Graph}
    (drawn : ((label root text).andThen (schema.graphMembers name root)) .empty = (.ok (), graph)) :
    ∃ drawing : Drawing, graph = drawing.draw root .empty := by
  have declared := describe_declared_pictures (describe_structure_pictures schema schema.graphLevels)
    (List.not_mem_nil (a := name)) (remaining_graph_levels.trans (Nat.lt_succ_self _)) root
  have members : ((label root text).andThen (schema.graphMembers name root)) .empty =
      entering name (describeDeclared schema (describeStructure schema schema.graphLevels) name root)
        (Graph.empty.node root text) := rfl
  rw [members] at drawn
  rcases declared.entering (Graph.empty.node root text) rfl with
    ⟨parts, -, same⟩ | ⟨fault, left, failed, -⟩
  · rw [drawn] at same
    exact ⟨.node text parts, (Prod.mk.inj same).2⟩
  · rw [drawn] at failed
    cases failed

/-- A graph that could be drawn of a type, of a structure, of the members of a structure below a
labelled root, or of a registry is connected. -/
theorem graphs_connected (schema : Schema) (root : String) :
    (∀ type graph, schema.describe type root .empty = (.ok (), graph) → graph.Connected root) ∧
    (∀ name text, schema.graphText name root = .ok text → ∃ graph,
      schema.graphInto name root .empty = (.ok (), graph) ∧ text = graph.render root ∧
        graph.Connected root) ∧
    (∀ name text graph,
      ((label root text).andThen (schema.graphMembers name root)) .empty = (.ok (), graph) →
        graph.Connected root) ∧
    ∀ settings text, Settings.graph schema settings = .ok text → ∃ graph,
      settings.draw schema .empty = (.ok (), graph) ∧ text = graph.render Settings.graphRoot ∧
        graph.Connected Settings.graphRoot := by
  refine ⟨fun type graph drawn => ?_, fun name text answered => ?_, fun name text graph drawn => ?_,
    fun settings text answered => ?_⟩
  · obtain ⟨drawing, -, rfl⟩ := (describe_pictures type root).drawn drawn
    exact drawing.drawn_connected root
  · obtain ⟨graph, drawn, same⟩ := graph_text_ok answered
    obtain ⟨drawing, -, rfl⟩ := (graph_into_pictures name root).drawn drawn
    exact ⟨_, drawn, same, drawing.drawn_connected root⟩
  · obtain ⟨drawing, rfl⟩ := graph_members_drawn drawn
    exact drawing.drawn_connected root
  · obtain ⟨graph, drawn, same⟩ := Settings.graph_ok answered
    obtain ⟨drawing, -, rfl⟩ := (settings.draw_pictures schema).drawn drawn
    exact ⟨_, drawn, same, drawing.drawn_connected Settings.graphRoot⟩

/-- The graph of a chain, and that of a registry in which two locations share a node. -/
theorem graphs_connected_shared :
    (∃ graph, Necklace.schema.graphInto "Chain" "Root" .empty = (.ok (), graph) ∧
      graph.Connected "Root") ∧
    ∃ graph, Route.homes.draw Route.schema .empty = (.ok (), graph) ∧
      graph.Connected "Settings" := by
  constructor
  · have outcome : (Necklace.schema.graphInto "Chain" "Root" .empty).1 = .ok () := by decide +kernel
    obtain ⟨-, structures, -⟩ := graphs_connected Necklace.schema "Root"
    have answered := graph_text_drawn (Prod.ext outcome rfl)
    obtain ⟨graph, drawn, -, connected⟩ := structures "Chain" _ answered
    exact ⟨graph, drawn, connected⟩
  · have outcome : (Route.homes.draw Route.schema .empty).1 = .ok () := by decide +kernel
    obtain ⟨-, -, -, registries⟩ := graphs_connected Route.schema "Settings"
    have answered := Settings.graph_drawn (Prod.ext outcome rfl)
    obtain ⟨graph, drawn, -, connected⟩ := registries Route.homes _ answered
    exact ⟨graph, drawn, connected⟩

end Schema

end Marshal
