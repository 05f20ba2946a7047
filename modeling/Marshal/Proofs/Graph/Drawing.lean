import Marshal.Proofs.Graph.Paths
import Mathlib.Data.List.Nodup

/-!
# Drawings

What a description draws is a tree: a node for every location, with the suffixes that lead to the
locations below it. Drawing it labels each node after the edge to it, before those below. If the
suffixes of a tree are plain and those at one node distinct, every location has a node of its own.
-/

namespace Marshal

inductive Drawing
  | node (caption : String) (parts : List (String × Drawing))

namespace Drawing

def caption : Drawing → String
  | .node caption _ => caption

def parts : Drawing → List (String × Drawing)
  | .node _ parts => parts

mutual

/-- Adds a drawing to a graph, below an edge that has been drawn. -/
def draw (path : String) (graph : Graph) : Drawing → Graph
  | .node caption parts => drawAll path (graph.node path caption) parts

def drawAll (owner : String) (graph : Graph) : List (String × Drawing) → Graph
  | [] => graph
  | (suffix, drawing) :: rest =>
      drawAll owner (draw (owner ++ suffix) (graph.child owner suffix) drawing) rest

end

mutual

/-- The paths of a drawing with their labels, in the order of drawing. -/
def labels (path segment : String) : Drawing → List (String × String)
  | .node caption parts => (path, segment ++ ": " ++ caption) :: labelsAll path segment parts

def labelsAll (path segment : String) : List (String × Drawing) → List (String × String)
  | [] => []
  | (suffix, drawing) :: rest =>
      labels (path ++ suffix) (Graph.segmentAfter segment suffix) drawing ++
        labelsAll path segment rest

end

mutual

def edges (path : String) : Drawing → List (String × String)
  | .node _ parts => edgesAll path parts

def edgesAll (owner : String) : List (String × Drawing) → List (String × String)
  | [] => []
  | (suffix, drawing) :: rest =>
      (owner, owner ++ suffix) :: (edges (owner ++ suffix) drawing ++ edgesAll owner rest)

end

/-- The way from a drawing down to another one in it. -/
inductive At : Drawing → List String → Drawing → Prop
  | here {drawing : Drawing} : At drawing [] drawing
  | part {caption suffix : String} {parts : List (String × Drawing)} {drawing inner : Drawing}
      {chain : List String} (inside : (suffix, drawing) ∈ parts) (further : At drawing chain inner) :
      At (.node caption parts) (suffix :: chain) inner

mutual

/-- That all suffixes are plain and those at one node distinct. -/
def Plain : Drawing → Prop
  | .node _ parts => (parts.map Prod.fst).Nodup ∧ PlainAll parts

def PlainAll : List (String × Drawing) → Prop
  | [] => True
  | (suffix, drawing) :: rest => Graph.PlainSuffix suffix ∧ Plain drawing ∧ PlainAll rest

end

variable {drawing : Drawing} {parts : List (String × Drawing)}

mutual

theorem draw_visiting (path : String) (graph : Graph) (drawing : Drawing) :
    (draw path graph drawing).visiting = graph.visiting := by
  cases drawing with
  | node caption parts =>
      rw [draw, draw_all_visiting]
      rfl

theorem draw_all_visiting (owner : String) (graph : Graph) (parts : List (String × Drawing)) :
    (drawAll owner graph parts).visiting = graph.visiting := by
  cases parts with
  | nil => rfl
  | cons part rest =>
      rw [drawAll, draw_all_visiting, draw_visiting]
      rfl

end

mutual

/-- Drawing does not look at the structures that are being described. -/
theorem draw_under (path : String) (graph : Graph) (visiting : List String) (drawing : Drawing) :
    draw path { graph with visiting } drawing = { draw path graph drawing with visiting } := by
  cases drawing with
  | node caption parts =>
      rw [draw, draw]
      exact draw_all_under path (graph.node path caption) visiting parts

theorem draw_all_under (owner : String) (graph : Graph) (visiting : List String)
    (parts : List (String × Drawing)) :
    drawAll owner { graph with visiting } parts = { drawAll owner graph parts with visiting } := by
  cases parts with
  | nil => rfl
  | cons part rest =>
      rw [drawAll, drawAll]
      have own := draw_under (owner ++ part.1) (graph.child owner part.1) visiting part.2
      have moved : Graph.child { graph with visiting } owner part.1 =
          { graph.child owner part.1 with visiting } := rfl
      rw [moved, own]
      exact draw_all_under owner _ visiting rest

end

theorem draw_all_append (owner : String) (graph : Graph) (first second : List (String × Drawing)) :
    drawAll owner graph (first ++ second) = drawAll owner (drawAll owner graph first) second := by
  induction first generalizing graph with
  | nil => rfl
  | cons part rest induction =>
      rw [List.cons_append, drawAll, drawAll]
      exact induction _

mutual

theorem draw_edges (path : String) (graph : Graph) (drawing : Drawing) :
    (draw path graph drawing).edges = graph.edges ++ edges path drawing := by
  cases drawing with
  | node caption parts =>
      rw [draw, edges, draw_all_edges]
      rfl

theorem draw_all_edges (owner : String) (graph : Graph) (parts : List (String × Drawing)) :
    (drawAll owner graph parts).edges = graph.edges ++ edgesAll owner parts := by
  cases parts with
  | nil => exact (List.append_nil _).symm
  | cons part rest =>
      rw [drawAll, edgesAll, draw_all_edges, draw_edges, Graph.child, List.append_assoc,
        List.append_assoc, List.singleton_append]

end

section Segments

theorem child_segment (graph : Graph) (owner suffix : String) :
    graph.childSegment owner suffix = Graph.segmentAfter (graph.segmentOf owner) suffix := rfl

theorem segment_of_child (graph : Graph) (owner suffix path : String) :
    (graph.child owner suffix).segmentOf path =
      if owner ++ suffix = path then Graph.segmentAfter (graph.segmentOf owner) suffix
      else graph.segmentOf path := by
  rw [← child_segment, Graph.segmentOf, Graph.child, List.find?_cons]
  by_cases same : owner ++ suffix = path
  · simp [same]
  · simp [same, Graph.segmentOf]

theorem longer_path (owner : String) {suffix : String} (plain : Graph.PlainSuffix suffix) :
    owner.length < (owner ++ suffix).length := by
  obtain ⟨first, rest, characters, -⟩ := plain
  rw [String.length_append, ← String.length_toList (s := suffix), characters, List.length_cons]
  omega

mutual

/-- The segments of paths that are no longer than that of a drawing stay as they are. -/
theorem draw_segment (path : String) (graph : Graph) (drawing : Drawing) (plain : drawing.Plain)
    {known : String} (short : known.length ≤ path.length) :
    (draw path graph drawing).segmentOf known = graph.segmentOf known := by
  cases drawing with
  | node caption parts => exact draw_all_segment path (graph.node path caption) parts plain.2 short

theorem draw_all_segment (owner : String) (graph : Graph) (parts : List (String × Drawing))
    (plain : PlainAll parts) {known : String} (short : known.length ≤ owner.length) :
    (drawAll owner graph parts).segmentOf known = graph.segmentOf known := by
  cases parts with
  | nil => rfl
  | cons part rest =>
      obtain ⟨suffix, own, others⟩ := plain
      have longer := longer_path owner suffix
      have different : owner ++ part.1 ≠ known := fun same => by
        rw [same] at longer
        omega
      rw [drawAll, draw_all_segment owner _ rest others short,
        draw_segment (owner ++ part.1) _ part.2 own (by omega), segment_of_child, if_neg different]

end

end Segments

section Locations

mutual

/-- The labels of a drawing are those of its locations. -/
theorem mem_labels (path segment : String) (drawing : Drawing) (label : String × String) :
    label ∈ labels path segment drawing ↔ ∃ chain inner, At drawing chain inner ∧ label =
      (Graph.pathOf path chain, Graph.segmentAlong segment chain ++ ": " ++ inner.caption) := by
  cases drawing with
  | node caption parts =>
      rw [labels, List.mem_cons, mem_labels_all]
      constructor
      · rintro (rfl | ⟨suffix, drawing, inside, chain, inner, further, rfl⟩)
        · exact ⟨[], _, .here, rfl⟩
        · exact ⟨suffix :: chain, inner, .part inside further, rfl⟩
      · rintro ⟨chain, inner, leads, rfl⟩
        cases leads with
        | here => exact .inl rfl
        | part inside further => exact .inr ⟨_, _, inside, _, inner, further, rfl⟩

theorem mem_labels_all (path segment : String) (parts : List (String × Drawing))
    (label : String × String) :
    label ∈ labelsAll path segment parts ↔
      ∃ suffix drawing, (suffix, drawing) ∈ parts ∧ ∃ chain inner, At drawing chain inner ∧
        label = (Graph.pathOf path (suffix :: chain),
          Graph.segmentAlong segment (suffix :: chain) ++ ": " ++ inner.caption) := by
  cases parts with
  | nil => simp [labelsAll]
  | cons part rest =>
      obtain ⟨suffix, drawing⟩ := part
      rw [labelsAll, List.mem_append, mem_labels, mem_labels_all]
      constructor
      · rintro (⟨chain, inner, leads, rfl⟩ | ⟨other, further, inside, rest⟩)
        · exact ⟨suffix, drawing, List.mem_cons_self, chain, inner, leads, rfl⟩
        · exact ⟨other, further, List.mem_cons_of_mem _ inside, rest⟩
      · rintro ⟨other, further, inside, chain, inner, leads, rfl⟩
        rcases List.mem_cons.mp inside with same | inside
        · cases same
          exact .inl ⟨chain, inner, leads, rfl⟩
        · exact .inr ⟨other, further, inside, chain, inner, leads, rfl⟩

end

theorem plain_all_iff : PlainAll parts ↔
    ∀ part ∈ parts, Graph.PlainSuffix part.1 ∧ part.2.Plain := by
  induction parts with
  | nil => simp [PlainAll]
  | cons part rest induction => simp [PlainAll, induction, and_assoc]

theorem At.plain {inner : Drawing} {chain : List String} (leads : At drawing chain inner)
    (plain : drawing.Plain) : (∀ suffix ∈ chain, Graph.PlainSuffix suffix) ∧ inner.Plain := by
  induction leads with
  | here => exact ⟨by simp, plain⟩
  | part inside _ induction =>
      obtain ⟨suffix, own⟩ := plain_all_iff.mp plain.2 _ inside
      obtain ⟨rest, inner⟩ := induction own
      exact ⟨List.forall_mem_cons.mpr ⟨suffix, rest⟩, inner⟩

/-- Locations below different parts have different paths. -/
theorem parts_apart {path left right : String} {first second : Drawing} {chain other : List String}
    {firstInner secondInner : Drawing} (leftPlain : Graph.PlainSuffix left ∧ first.Plain)
    (rightPlain : Graph.PlainSuffix right ∧ second.Plain) (leads : At first chain firstInner)
    (otherLeads : At second other secondInner)
    (same : Graph.pathOf path (left :: chain) = Graph.pathOf path (right :: other)) :
    left = right := by
  have chains := Graph.path_injective
    (List.forall_mem_cons.mpr ⟨leftPlain.1, (leads.plain leftPlain.2).1⟩)
    (List.forall_mem_cons.mpr ⟨rightPlain.1, (otherLeads.plain rightPlain.2).1⟩) same
  exact (List.cons.inj chains).1

/-- A location below a node does not have the node's path. -/
theorem below_apart {path suffix : String} {drawing inner : Drawing} {chain : List String}
    (plain : Graph.PlainSuffix suffix ∧ drawing.Plain) (leads : At drawing chain inner) :
    Graph.pathOf path (suffix :: chain) ≠ path := by
  intro same
  have same : Graph.pathOf path (suffix :: chain) = Graph.pathOf path [] := same
  have chains := Graph.path_injective
    (List.forall_mem_cons.mpr ⟨plain.1, (leads.plain plain.2).1⟩) (by simp) same
  cases chains

mutual

theorem labels_distinct (path segment : String) (drawing : Drawing) (plain : drawing.Plain) :
    ((labels path segment drawing).map Prod.fst).Nodup := by
  cases drawing with
  | node caption parts =>
      rw [labels, List.map_cons, List.nodup_cons]
      refine ⟨?_, labels_all_distinct path segment parts plain.1 plain.2⟩
      intro inside
      obtain ⟨label, further, same⟩ := List.mem_map.mp inside
      obtain ⟨suffix, drawing, part, chain, inner, leads, rfl⟩ :=
        (mem_labels_all path segment parts label).mp further
      exact below_apart (plain_all_iff.mp plain.2 _ part) leads same

theorem labels_all_distinct (path segment : String) (parts : List (String × Drawing))
    (distinct : (parts.map Prod.fst).Nodup) (plain : PlainAll parts) :
    ((labelsAll path segment parts).map Prod.fst).Nodup := by
  cases parts with
  | nil => exact .nil
  | cons part rest =>
      obtain ⟨suffix, drawing⟩ := part
      obtain ⟨fresh, others⟩ := List.nodup_cons.mp distinct
      rw [labelsAll, List.map_append, List.nodup_append]
      refine ⟨labels_distinct _ _ drawing plain.2.1,
        labels_all_distinct path segment rest others plain.2.2, ?_⟩
      intro first own second further same
      subst same
      obtain ⟨label, inside, rfl⟩ := List.mem_map.mp own
      obtain ⟨other, otherInside, samePath⟩ := List.mem_map.mp further
      obtain ⟨chain, inner, leads, rfl⟩ := (mem_labels _ _ drawing label).mp inside
      obtain ⟨otherSuffix, otherDrawing, part, otherChain, otherInner, otherLeads, rfl⟩ :=
        (mem_labels_all path segment rest other).mp otherInside
      have suffixes := parts_apart ⟨plain.1, plain.2.1⟩ (plain_all_iff.mp plain.2.2 _ part) leads
        otherLeads samePath.symm
      exact fresh (List.mem_map.mpr ⟨_, part, suffixes.symm⟩)

end

end Locations

section Nodes

theorem relabel_fresh {path label : String} {nodes : List (String × String)}
    (fresh : path ∉ nodes.map Prod.fst) :
    Graph.relabel path label nodes = nodes ++ [(path, label)] := by
  induction nodes with
  | nil => rfl
  | cons node rest induction =>
      simp only [List.map_cons, List.mem_cons, not_or] at fresh
      rw [Graph.relabel, if_neg (Ne.symm fresh.1), induction fresh.2, List.cons_append]

mutual

/-- Where all paths are new and distinct, a drawing adds its labels to those that are there. -/
theorem draw_nodes (path : String) (graph : Graph) (drawing : Drawing) (plain : drawing.Plain)
    (distinct : ((graph.nodes ++ labels path (graph.segmentOf path) drawing).map Prod.fst).Nodup) :
    (draw path graph drawing).nodes =
      graph.nodes ++ labels path (graph.segmentOf path) drawing := by
  cases drawing with
  | node caption parts =>
      have fresh : path ∉ graph.nodes.map Prod.fst := by
        intro known
        rw [labels, List.map_append, List.map_cons, List.nodup_append] at distinct
        exact distinct.2.2 path known path List.mem_cons_self rfl
      have labelled : (graph.node path caption).nodes =
          graph.nodes ++ [(path, graph.segmentOf path ++ ": " ++ caption)] := relabel_fresh fresh
      rw [labels, ← List.singleton_append, ← List.append_assoc] at distinct ⊢
      rw [← labelled] at distinct ⊢
      exact draw_all_nodes path (graph.node path caption) parts plain.2 distinct

theorem draw_all_nodes (owner : String) (graph : Graph) (parts : List (String × Drawing))
    (plain : PlainAll parts)
    (distinct : ((graph.nodes ++ labelsAll owner (graph.segmentOf owner) parts).map Prod.fst).Nodup) :
    (drawAll owner graph parts).nodes =
      graph.nodes ++ labelsAll owner (graph.segmentOf owner) parts := by
  cases parts with
  | nil => exact (List.append_nil _).symm
  | cons part rest =>
      obtain ⟨suffix, drawing⟩ := part
      have segment : (graph.child owner suffix).segmentOf (owner ++ suffix) =
          Graph.segmentAfter (graph.segmentOf owner) suffix := by
        rw [segment_of_child, if_pos rfl]
      have longer := longer_path owner plain.1
      -- All paths of the part are longer than the owner's, whose segment is therefore kept.
      have kept : (draw (owner ++ suffix) (graph.child owner suffix) drawing).segmentOf owner =
          graph.segmentOf owner := by
        rw [draw_segment _ _ drawing plain.2.1 (by omega), segment_of_child,
          if_neg fun same => by rw [same] at longer; omega]
      rw [labelsAll, ← List.append_assoc] at distinct ⊢
      have own := draw_nodes (owner ++ suffix) (graph.child owner suffix) drawing plain.2.1
        (by
          rw [segment]
          rw [List.map_append] at distinct
          exact (List.nodup_append.mp distinct).1)
      rw [segment] at own
      have left : (graph.child owner suffix).nodes = graph.nodes := rfl
      rw [left] at own
      rw [← own, ← kept] at distinct ⊢
      exact draw_all_nodes owner _ rest plain.2.2 distinct

end

/-- A plain drawing in an empty graph has a node for every location and no other. -/
theorem drawn_nodes (root : String) (plain : drawing.Plain) :
    (draw root .empty drawing).nodes = labels root root drawing :=
  draw_nodes root .empty drawing plain (labels_distinct root root drawing plain)

end Nodes

section Edges

theorem mem_edges_all (owner : String) (parts : List (String × Drawing)) (edge : String × String) :
    edge ∈ edgesAll owner parts ↔ ∃ part ∈ parts,
      edge = (owner, owner ++ part.1) ∨ edge ∈ edges (owner ++ part.1) part.2 := by
  induction parts with
  | nil => simp [edgesAll]
  | cons part rest induction =>
      rw [edgesAll, List.mem_cons, List.mem_append, induction, List.exists_mem_cons_iff, or_assoc]

/-- Edges lead from locations to locations. -/
theorem edge_ends (path : String) (drawing : Drawing) {edge : String × String}
    (inside : edge ∈ edges path drawing) :
    (∃ chain inner, At drawing chain inner ∧ edge.1 = Graph.pathOf path chain) ∧
      ∃ chain inner, At drawing chain inner ∧ edge.2 = Graph.pathOf path chain := by
  cases drawing with
  | node caption parts =>
      obtain ⟨⟨suffix, drawing⟩, part, rfl | deeper⟩ := (mem_edges_all path parts edge).mp inside
      · exact ⟨⟨[], _, .here, rfl⟩, [suffix], drawing, .part part .here, rfl⟩
      · have below : sizeOf drawing < sizeOf parts := by
          have less := List.sizeOf_lt_of_mem part
          simp only [Prod.mk.sizeOf_spec] at less
          omega
        obtain ⟨⟨chain, inner, leads, source⟩, other, last, further, target⟩ :=
          edge_ends (path ++ suffix) drawing deeper
        exact ⟨⟨suffix :: chain, inner, .part part leads, source⟩, suffix :: other, last,
          .part part further, target⟩
termination_by sizeOf drawing
decreasing_by
  subst_vars
  rw [node.sizeOf_spec]
  omega

/-- The edges from a node among those of its parts are the edges to the parts. -/
theorem edges_all_own (owner : String) (parts : List (String × Drawing)) (plain : PlainAll parts) :
    (edgesAll owner parts).filter (fun edge => edge.1 = owner) =
      parts.map fun part => (owner, owner ++ part.1) := by
  induction parts with
  | nil => rfl
  | cons part rest induction =>
      have deeper : (edges (owner ++ part.1) part.2).filter (fun edge => edge.1 = owner) = [] := by
        rw [List.filter_eq_nil_iff]
        intro edge inside
        obtain ⟨⟨chain, inner, leads, same⟩, -⟩ := edge_ends _ part.2 inside
        rw [decide_eq_true_eq, same]
        exact below_apart ⟨plain.1, plain.2.1⟩ leads
      rw [edgesAll, List.filter_cons_of_pos (by simp), List.filter_append, deeper, List.nil_append,
        induction plain.2.2, List.map_cons]

section Beside

variable {owner suffix : String} {drawing inner : Drawing} {chain : List String}

/-- A part has no edges from a location below another one. -/
theorem no_edges_beside {other : String} {beside : Drawing} (different : suffix ≠ other)
    (plain : Graph.PlainSuffix suffix ∧ drawing.Plain)
    (besidePlain : Graph.PlainSuffix other ∧ beside.Plain) (leads : At drawing chain inner) :
    (edges (owner ++ other) beside).filter
      (fun edge => edge.1 = Graph.pathOf owner (suffix :: chain)) = [] := by
  rw [List.filter_eq_nil_iff]
  intro edge inside
  rw [decide_eq_true_eq]
  intro source
  obtain ⟨⟨otherChain, otherInner, otherLeads, same⟩, -⟩ := edge_ends _ beside inside
  exact different (parts_apart plain besidePlain leads otherLeads (source.symm.trans same))

theorem no_edges_among {parts : List (String × Drawing)} (absent : suffix ∉ parts.map Prod.fst)
    (plain : Graph.PlainSuffix suffix ∧ drawing.Plain) (partsPlain : PlainAll parts)
    (leads : At drawing chain inner) :
    (edgesAll owner parts).filter
      (fun edge => edge.1 = Graph.pathOf owner (suffix :: chain)) = [] := by
  induction parts with
  | nil => rfl
  | cons part rest induction =>
      obtain ⟨other, own, others⟩ := partsPlain
      simp only [List.map_cons, List.mem_cons, not_or] at absent
      have notOwner : Graph.pathOf owner (suffix :: chain) ≠ owner := below_apart plain leads
      rw [edgesAll, List.filter_cons_of_neg (by simpa using Ne.symm notOwner), List.filter_append,
        no_edges_beside absent.1 plain ⟨other, own⟩ leads, List.nil_append]
      exact induction absent.2 others

/-- The edges from a location below a part are edges of that part. -/
theorem edges_all_part {parts : List (String × Drawing)} (distinct : (parts.map Prod.fst).Nodup)
    (plain : PlainAll parts) (inside : (suffix, drawing) ∈ parts) (leads : At drawing chain inner) :
    (edgesAll owner parts).filter (fun edge => edge.1 = Graph.pathOf owner (suffix :: chain)) =
      (edges (owner ++ suffix) drawing).filter
        (fun edge => edge.1 = Graph.pathOf owner (suffix :: chain)) := by
  induction parts with
  | nil => simp at inside
  | cons part rest induction =>
      obtain ⟨other, own⟩ := part
      obtain ⟨fresh, others⟩ := List.nodup_cons.mp distinct
      have partPlain := plain_all_iff.mp plain _ inside
      have notOwner : Graph.pathOf owner (suffix :: chain) ≠ owner := below_apart partPlain leads
      rw [edgesAll, List.filter_cons_of_neg (by simpa using Ne.symm notOwner), List.filter_append]
      rcases List.mem_cons.mp inside with same | further
      · cases same
        rw [no_edges_among fresh partPlain plain.2.2 leads, List.append_nil]
      · have different : suffix ≠ other := by
          rintro rfl
          exact fresh (List.mem_map.mpr ⟨_, further, rfl⟩)
        rw [no_edges_beside different partPlain ⟨plain.1, plain.2.1⟩ leads, List.nil_append]
        exact induction others plain.2.2 further

end Beside

/-- The edges from a location are those to the locations right below it, in their order. -/
theorem edges_from {path : String} {inner : Drawing} {chain : List String} (plain : drawing.Plain)
    (leads : At drawing chain inner) :
    (edges path drawing).filter (fun edge => edge.1 = Graph.pathOf path chain) =
      inner.parts.map fun part => (Graph.pathOf path chain, Graph.pathOf path chain ++ part.1) := by
  induction leads generalizing path with
  | @here drawing =>
      cases drawing with
      | node caption parts => exact edges_all_own path parts plain.2
  | part inside further induction =>
      rw [edges, edges_all_part plain.1 plain.2 inside further]
      exact induction (plain_all_iff.mp plain.2 _ inside).2

end Edges

end Drawing

end Marshal
