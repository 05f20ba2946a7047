import Marshal.Graph.Basic

/-!
The text of a graph in the DOT language. A quote and a backslash inside a quoted string carry a
backslash of their own.
-/

namespace Marshal.Graph

def escape (text : List Char) : List Char :=
  text.flatMap fun character =>
    if character = '"' ∨ character = '\\' then ['\\', character] else [character]

def quoted (text : String) : List Char := '"' :: escape text.toList ++ ['"']

def nodeLine (node : String × String) : List Char :=
  "    ".toList ++ quoted node.1 ++ " [label=".toList ++ quoted node.2 ++ "];\n".toList

def edgeLine (edge : String × String) : List Char :=
  "    ".toList ++ quoted edge.1 ++ " -> ".toList ++ quoted edge.2 ++ ";\n".toList

def dot (graph : Graph) (name : String) : List Char :=
  "digraph ".toList ++ quoted name ++ " \x7b\n".toList ++ graph.nodes.flatMap nodeLine ++
    graph.edges.flatMap edgeLine ++ "\x7d\n".toList

def render (graph : Graph) (name : String) : String := String.ofList (graph.dot name)

end Marshal.Graph
