import Marshal.Phrase.Block

/-!
The readers of all kinds of phrases, tied together: `PathText.ofText?` and `TypeText.ofText` read
a path and a type that are a whole text.
-/

namespace Marshal.Phrase

/-- The reader of a kind of phrase, out of those for what stands in it. -/
def rules (grammar : Grammar) : Grammar
  | .type sums => type grammar sums
  | .bound place => bound grammar place
  | .argument => argument grammar
  | .expression structures => expression grammar structures
  | .operand structures => operand grammar structures
  | .statement => leading grammar true
  | .body => leading grammar false
  | .pattern => do return ⟨← pattern grammar, .other⟩
  | .alternatives => do return ⟨← alternatives grammar, .other⟩
  | .block => do return ⟨← block grammar, .block⟩

/-- Phrases in one another up to a depth. -/
def grammarTo : Nat → Grammar
  | 0 => fun _ => refuse
  | depth + 1 => rules (grammarTo depth)

/-- No phrase of a text is in more others than this. -/
def grammarFor (text : String) : Grammar := grammarTo (4 * text.length + 8)

/-- The whole of what a reader takes. -/
def readAll {Value : Type} (reader : Reader Value) (trees : List Tree) : Option Value :=
  match reader trees with
  | some (value, []) => some value
  | _ => none

/-- A path to an item, respelled with nothing between its tokens. -/
structure PathText where
  text : String
deriving DecidableEq, Repr

/-- The path that a text spells, if it spells one. -/
def PathText.ofText? (text : String) : Option PathText :=
  (Tree.ofText? text).bind
    (readAll ((fun spelling => ⟨spelling.text⟩) <$> path (grammarFor text) false))

/-- A type, respelled with nothing between its tokens; `binder` is what stands in front of it to
bind lifetimes. -/
structure TypeText where
  binder : String
  text : String
deriving DecidableEq, Repr

def TypeText.reader (grammar : Grammar) : Reader TypeText := do
  let binder ← optionalBinder grammar
  return ⟨binder, ← grammar.spell (.type true)⟩

/-- The type that a text spells. What is not understood keeps its tokens as they are. -/
def TypeText.ofText (text : String) : TypeText :=
  match Tree.ofText? text with
  | some trees =>
      match readAll (TypeText.reader (grammarFor text)) trees with
      | some type => type
      | none => ⟨"", Tree.texts trees⟩
  | none => ⟨"", text⟩

/-- A text with nothing between its tokens, if it has tokens. -/
def respelled (text : String) : String :=
  match Tree.ofText? text with
  | some trees => Tree.texts trees
  | none => text

end Marshal.Phrase
