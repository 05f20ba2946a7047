import Marshal.Step

/-!
Documentation graphs: labelled nodes, keyed by path, and edges from owner to child, both in the
order of their making. A label starts with the segment that its path ends in. The stack of
structures being described tells a recursive mention from a first one.
-/

namespace Marshal

structure Graph where
  nodes : List (String × String)
  edges : List (String × String)
  /-- The segments that paths end in, the latest first. -/
  segments : List (String × String)
  /-- The structures being described, the innermost first. -/
  visiting : List String
deriving DecidableEq, Repr

namespace Graph

def empty : Graph := ⟨[], [], [], []⟩

def segmentOf (graph : Graph) (path : String) : String :=
  ((graph.segments.find? fun entry => entry.1 = path).map Prod.snd).getD path

def relabel (path label : String) : List (String × String) → List (String × String)
  | [] => [(path, label)]
  | (known, old) :: rest =>
      if known = path then (known, label) :: rest else (known, old) :: relabel path label rest

/-- Labels a node with its segment and type; a node that has a label gets the new one. -/
def node (graph : Graph) (path typeLabel : String) : Graph :=
  { graph with
    nodes := relabel path (graph.segmentOf path ++ ": " ++ typeLabel) graph.nodes }

/-- A child that is named has its name as segment; any other continues its owner's. -/
def childSegment (graph : Graph) (owner suffix : String) : String :=
  match suffix.toList with
  | '.' :: name => String.ofList name
  | _ => graph.segmentOf owner ++ suffix

/-- Draws the edge to a child; labelling the child is left to whoever describes it. -/
def child (graph : Graph) (owner suffix : String) : Graph :=
  { graph with
    segments := (owner ++ suffix, graph.childSegment owner suffix) :: graph.segments
    edges := graph.edges ++ [(owner, owner ++ suffix)] }

def isVisiting (graph : Graph) (name : String) : Bool := graph.visiting.contains name

def enter (graph : Graph) (name : String) : Graph :=
  { graph with visiting := name :: graph.visiting }

def leave (graph : Graph) : Graph := { graph with visiting := graph.visiting.tail }

end Graph

end Marshal
