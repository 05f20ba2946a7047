import Marshal.Graph.Dot
import Mathlib.Tactic.SplitIfs

/-!
# The text of a graph read back

A reader of the text of a graph tells what stands in quotes from the words around it, a character
after a backslash standing for itself. It finds the name, the nodes and the edges again, whatever
characters they have in them: nothing inside of quotes is taken for the text around it.
-/

namespace Marshal.Graph

/-- What the text of a graph consists of, blanks apart. -/
inductive DotToken
  | quoted (text : String)
  | word (text : String)
deriving DecidableEq

namespace DotToken

/-- The word that ends, if there is one. -/
def ended (word : List Char) : List DotToken :=
  if word = [] then [] else [.word (String.ofList word)]

mutual

/-- The tokens from a place outside of quotes, where a word may be under way. -/
def outside (word : List Char) : List Char → Option (List DotToken)
  | [] => some (ended word)
  | character :: rest =>
      if character = '"' then (inside [] rest).map (ended word ++ ·)
      else if character = ' ' ∨ character = '\n' then (outside [] rest).map (ended word ++ ·)
      else outside (word ++ [character]) rest

/-- The tokens from a place inside of quotes, with what has been read since they were opened. -/
def inside (read : List Char) : List Char → Option (List DotToken)
  | [] => none
  | '"' :: rest => (outside [] rest).map (.quoted (String.ofList read) :: ·)
  | ['\\'] => none
  | '\\' :: character :: rest => inside (read ++ [character]) rest
  | character :: rest => inside (read ++ [character]) rest

end

/-- The nodes and the edges that tokens state, up to the closing brace. -/
def statements : List DotToken → Option (List (String × String) × List (String × String))
  | [.word "\x7d"] => some ([], [])
  | .quoted path :: .word "[label=" :: .quoted label :: .word "];" :: rest =>
      (statements rest).map fun found => ((path, label) :: found.1, found.2)
  | .quoted owner :: .word "->" :: .quoted child :: .word ";" :: rest =>
      (statements rest).map fun found => (found.1, (owner, child) :: found.2)
  | _ => none

end DotToken

/-- The name, the nodes and the edges that a text states. -/
def readDot (text : String) :
    Option (String × List (String × String) × List (String × String)) :=
  match DotToken.outside [] text.toList with
  | some (.word "digraph" :: .quoted name :: .word "\x7b" :: rest) =>
      (DotToken.statements rest).map fun found => (name, found)
  | _ => none

/-- Replaces every occurrence of a character. -/
def replaced (old : Char) (new text : List Char) : List Char :=
  text.flatMap fun character => if character = old then new else [character]

/-- Backslashes are doubled before quotes get theirs, so none is doubled that belongs to a quote. -/
theorem escape_twice (text : List Char) :
    escape text = replaced '"' ['\\', '"'] (replaced '\\' ['\\', '\\'] text) := by
  rw [escape, replaced, replaced, List.flatMap_assoc]
  congr 1
  funext character
  by_cases backslash : character = '\\'
  · subst backslash
    simp
  · by_cases quote : character = '"'
    · subst quote
      simp
    · simp [backslash, quote]

namespace DotToken

/-- What has been escaped is read as it was, up to the quote that closes it. -/
theorem inside_escape (read text rest : List Char) :
    inside read (escape text ++ '"' :: rest) =
      (outside [] rest).map (.quoted (String.ofList (read ++ text)) :: ·) := by
  induction text generalizing read with
  | nil => simp [escape, inside]
  | cons character text induction =>
      have further := induction (read ++ [character])
      rw [List.append_assoc, List.singleton_append] at further
      rw [← further, escape, List.flatMap_cons, ← escape, List.append_assoc]
      split_ifs with special
      · rcases special with rfl | rfl <;> simp [inside]
      · simp only [not_or] at special
        simp [inside, special.1, special.2]

/-- That a text outside of quotes consists of tokens, whatever follows it. -/
def Spells (text : List Char) (tokens : List DotToken) : Prop :=
  ∀ rest, outside [] (text ++ rest) = (outside [] rest).map (tokens ++ ·)

theorem Spells.append {first second : List Char} {tokens others : List DotToken}
    (spells : Spells first tokens) (further : Spells second others) :
    Spells (first ++ second) (tokens ++ others) := by
  intro rest
  rw [List.append_assoc, spells, further, Option.map_map]
  congr 1
  funext found
  exact (List.append_assoc _ _ _).symm

theorem spells_lines {Entry : Type} {line : Entry → List Char} {tokens : Entry → List DotToken}
    (each : ∀ entry, Spells (line entry) (tokens entry)) (entries : List Entry) :
    Spells (entries.flatMap line) (entries.flatMap tokens) := by
  induction entries with
  | nil => exact fun rest => by simp
  | cons entry others induction => exact (each entry).append induction

/-- A text in quotes is a token of its own, which ends a word before it. -/
theorem outside_quoted (word rest : List Char) (text : String) :
    outside word (Graph.quoted text ++ rest) =
      (outside [] rest).map (ended word ++ [.quoted text] ++ ·) := by
  have closed : Graph.quoted text ++ rest = '"' :: (escape text.toList ++ '"' :: rest) := by
    simp [Graph.quoted]
  rw [closed, outside, if_pos rfl, inside_escape, Option.map_map, List.nil_append,
    String.ofList_toList]
  congr 1
  funext found
  simp

def nodeTokens (node : String × String) : List DotToken :=
  [.quoted node.1, .word "[label=", .quoted node.2, .word "];"]

def edgeTokens (edge : String × String) : List DotToken :=
  [.quoted edge.1, .word "->", .quoted edge.2, .word ";"]

theorem node_line_spells (node : String × String) : Spells (nodeLine node) (nodeTokens node) := by
  intro rest
  unfold nodeLine
  simp [outside, ended, outside_quoted, nodeTokens, Function.comp_def]

theorem edge_line_spells (edge : String × String) : Spells (edgeLine edge) (edgeTokens edge) := by
  intro rest
  unfold edgeLine
  simp [outside, ended, outside_quoted, edgeTokens, Function.comp_def]

/-- The text of a graph, token by token. -/
theorem dot_spells (graph : Graph) (name : String) :
    Spells (graph.dot name) ([.word "digraph", .quoted name, .word "\x7b"] ++
      graph.nodes.flatMap nodeTokens ++ graph.edges.flatMap edgeTokens ++ [.word "\x7d"]) := by
  have opened : Spells ("digraph ".toList ++ Graph.quoted name ++ " \x7b\n".toList)
      [.word "digraph", .quoted name, .word "\x7b"] := by
    intro rest
    simp [outside, ended, outside_quoted, Function.comp_def]
  have closed : Spells "\x7d\n".toList [.word "\x7d"] := by
    intro rest
    simp [outside, ended]
  exact ((opened.append (spells_lines node_line_spells graph.nodes)).append
    (spells_lines edge_line_spells graph.edges)).append closed

theorem edge_statements (edges : List (String × String)) :
    statements (edges.flatMap edgeTokens ++ [.word "\x7d"]) = some ([], edges) := by
  induction edges with
  | nil => rfl
  | cons edge rest induction => simp [edgeTokens, statements, induction]

theorem node_statements (nodes edges : List (String × String)) :
    statements (nodes.flatMap nodeTokens ++ edges.flatMap edgeTokens ++ [.word "\x7d"]) =
      some (nodes, edges) := by
  induction nodes with
  | nil => exact edge_statements edges
  | cons node rest induction =>
      rw [List.append_assoc] at induction
      simp [nodeTokens, statements, induction]

end DotToken

theorem dot_congr {graph other : Graph} (name : String) (nodes : other.nodes = graph.nodes)
    (edges : other.edges = graph.edges) : other.dot name = graph.dot name := by
  unfold dot
  rw [nodes, edges]

theorem read_render (graph : Graph) (name : String) :
    readDot (graph.render name) = some (name, graph.nodes, graph.edges) := by
  have tokens := DotToken.dot_spells graph name []
  have ends : DotToken.outside [] [] = some [] := rfl
  rw [List.append_nil, ends, Option.map_some, List.append_nil] at tokens
  rw [readDot, render, String.toList_ofList, tokens]
  have statements := DotToken.node_statements graph.nodes graph.edges
  simp only [List.cons_append, List.nil_append, statements, Option.map_some]

/-- The text of a graph says what the graph holds, whatever characters are in it, and nothing else:
its name, its nodes and its edges are read back, so the text is that of no other graph. -/
theorem text_says_what_graph_holds (graph : Graph) (name : String) :
    readDot (graph.render name) = some (name, graph.nodes, graph.edges) ∧
      ∀ other otherName, Graph.render other otherName = graph.render name ↔
        otherName = name ∧ other.nodes = graph.nodes ∧ other.edges = graph.edges := by
  refine ⟨read_render graph name, fun other otherName => ⟨fun same => ?_, fun same => ?_⟩⟩
  · have found := read_render other otherName
    rw [same, read_render] at found
    simp only [Option.some.injEq, Prod.mk.injEq] at found
    exact ⟨found.1.symm, found.2.1.symm, found.2.2.symm⟩
  · obtain ⟨names, nodes, edges⟩ := same
    rw [names]
    exact congrArg String.ofList (dot_congr name nodes edges)

end Marshal.Graph
