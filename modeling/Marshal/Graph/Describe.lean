import Marshal.Canonical
import Marshal.Graph.Dot
import Marshal.Schema

/-!
Drawing types. A structure is drawn once on every way down from the root: where it is met again
inside its own drawing, a labelled node only marks the recursion, and an extension of a structure
that is being drawn adds nothing. Since every structure level enters a structure that was not on
the stack, as many levels as there are structures are enough.
-/

namespace Marshal.Schema

def label (path typeLabel : String) : Step Graph := fun graph => (.ok (), graph.node path typeLabel)

/-- Draws the edge to a child and describes the child. -/
def within (owner suffix : String) (describe : String → Step Graph) : Step Graph := fun graph =>
  describe (owner ++ suffix) (graph.child owner suffix)

def enumerationLabel (info : EnumerationInfo) (table : EnumTable Int) : String :=
  info.label ++ " \x7b" ++ String.intercalate " | " table.names ++ "\x7d"

section Level

variable (schema : Schema) (deeper : String → String → Step Graph)

mutual

def describeAt (type : Ty) (path : String) : Step Graph :=
  match type with
  | .primitive scalar => label path scalar.wideKind.name
  | .string => label path "string"
  | .textual _ => label path "string"
  | .enumeration name =>
      match (schema.enumerationInfo name).table with
      | .error fault => .fail fault
      | .ok table => label path (enumerationLabel (schema.enumerationInfo name) table)
  | .record name => deeper name path
  | .option inner => (label path "optional").andThen (within path "?" (describeAt inner))
  | .sequence _ item => (label path "sequence").andThen (within path "[]" (describeAt item))
  | .map _ key value =>
      (label path "map").andThen <|
        match schema.keyNaming? key with
        | some _ => within path ".*" (describeAt value)
        | none => (within path ".key" (describeAt key)).andThen
            (within path ".value" (describeAt value))
  | .tuple slots => (label path "tuple").andThen (describeSlots 0 slots path)
  | .boxed inner => describeAt inner path

def describeSlots (position : Nat) (types : List Ty) (path : String) : Step Graph :=
  match types with
  | [] => .done
  | type :: types =>
      (within path ("." ++ toString position) (describeAt type)).andThen
        (describeSlots (position + 1) types path)

end

/-- Runs a step with a structure on the stack, whatever becomes of it. -/
def entering (name : String) (step : Step Graph) : Step Graph := fun graph =>
  let (outcome, left) := step (graph.enter name)
  (outcome, left.leave)

mutual

def describeMember (owner : String) : Member → Step Graph
  | .field head type =>
      (within owner ("." ++ head.name) (describeAt schema deeper type)).inField head.name
  | .extend _ base members => fun graph =>
      if graph.isVisiting base then (.ok (), graph)
      else entering base (describeMembers owner members) graph

def describeMembers (owner : String) : List Member → Step Graph
  | [] => .done
  | member :: rest => (describeMember owner member).andThen (describeMembers owner rest)

end

/-- The members of a structure, or the fault of its declaration. -/
def describeDeclared (name path : String) : Step Graph :=
  match (schema.structureInfo name).members with
  | .error fault => .fail fault
  | .ok members => describeMembers schema deeper path members

end Level

/-- A labelled structure with all that it writes. -/
def describeStructure (schema : Schema) : Nat → String → String → Step Graph
  | 0, _, _ => .done
  | levels + 1, name, path => fun graph =>
      if graph.isVisiting name then
        label path ((schema.structureInfo name).label ++ " (recursive)") graph
      else
        ((label path (schema.structureInfo name).label).andThen
          (entering name (describeDeclared schema (describeStructure schema levels) name path)))
          graph

/-- Levels that no description can use up. -/
def graphLevels (schema : Schema) : Nat := schema.structures.length + 2

def describe (schema : Schema) (type : Ty) (path : String) : Step Graph :=
  describeAt schema (describeStructure schema schema.graphLevels) type path

def graphInto (schema : Schema) (name path : String) : Step Graph :=
  describeStructure schema schema.graphLevels name path

/-- The members of a structure below a node that is labelled by someone else. -/
def graphMembers (schema : Schema) (name path : String) : Step Graph := fun graph =>
  if graph.isVisiting name then (.ok (), graph)
  else entering name
    (describeDeclared schema (describeStructure schema schema.graphLevels) name path) graph

/-- The graph of a structure as text, with its root under a name. -/
def graphText (schema : Schema) (name root : String) : Except Fault String :=
  match schema.graphInto name root .empty with
  | (.ok (), graph) => .ok (graph.render root)
  | (.error fault, _) => .error fault

end Marshal.Schema
