import Marshal.Fault

/-!
Cells that keep declarations of many types, each built when it is first asked for. What is kept
is the outcome, so a declaration that fails is not built again. A builder may ask the same cell
for other declarations, also for the one that it is building; of two outcomes for one type the
first one kept stays.
-/

namespace Marshal

variable {Key : Type} [DecidableEq Key] {Declared : Key → Type}

/-- An outcome beside the type it is for. -/
structure KeptDeclaration (Declared : Key → Type) where
  key : Key
  outcome : Except Fault (Declared key)

namespace KeptDeclaration

/-- The outcome, if it is one for the type. -/
def at? (kept : KeptDeclaration Declared) (key : Key) : Option (Except Fault (Declared key)) :=
  if same : kept.key = key then some (same ▸ kept.outcome) else none

def answer (kept : KeptDeclaration Declared) (key : Key) : Except Fault (Declared key) :=
  (kept.at? key).getD (.error (.of .cellHoldsOther))

end KeptDeclaration

structure DeclarationCell (Declared : Key → Type) where
  entries : List (Key × KeptDeclaration Declared)

/-- The way to a declaration: an outcome, or first a request to the cell with the builder that is
to be used for it and with what follows from the answer. -/
inductive Builder (Declared : Key → Type) : Key → Type
  | finish {key : Key} (outcome : Except Fault (Declared key)) : Builder Declared key
  | request {key : Key} (other : Key) (builder : Builder Declared other)
      (next : Except Fault (Declared other) → Builder Declared key) : Builder Declared key

namespace DeclarationCell

def empty : DeclarationCell Declared := ⟨[]⟩

def find? (cell : DeclarationCell Declared) (key : Key) : Option (KeptDeclaration Declared) :=
  (cell.entries.find? fun entry => entry.1 = key).map Prod.snd

/-- Keeps an outcome unless one is kept for its type, and gives what is kept then. -/
def keep (cell : DeclarationCell Declared) (key : Key) (outcome : Except Fault (Declared key)) :
    KeptDeclaration Declared × DeclarationCell Declared :=
  match cell.find? key with
  | some kept => (kept, cell)
  | none => (⟨key, outcome⟩, ⟨cell.entries ++ [(key, ⟨key, outcome⟩)]⟩)

/-- Answers from the cell where it can. Otherwise the outcome is built, which may change the
cell, and then kept. -/
def request (key : Key)
    (build : DeclarationCell Declared → Except Fault (Declared key) × DeclarationCell Declared)
    (cell : DeclarationCell Declared) : Except Fault (Declared key) × DeclarationCell Declared :=
  match cell.find? key with
  | some kept => (kept.answer key, cell)
  | none =>
      let (outcome, built) := build cell
      let (kept, filled) := built.keep key outcome
      (kept.answer key, filled)

end DeclarationCell

/-- The outcome of a builder, and the cell that its requests leave. -/
def Builder.run {key : Key} (builder : Builder Declared key) (cell : DeclarationCell Declared) :
    Except Fault (Declared key) × DeclarationCell Declared :=
  match builder with
  | .finish outcome => (outcome, cell)
  | .request other inner next =>
      let (answer, asked) := DeclarationCell.request other (fun cell => inner.run cell) cell
      (next answer).run asked

/-- The declaration of a type. The builder is run only where nothing is kept for the type. -/
def DeclarationCell.getOrBuild (cell : DeclarationCell Declared) (key : Key)
    (builder : Builder Declared key) : Except Fault (Declared key) × DeclarationCell Declared :=
  request key builder.run cell

end Marshal
