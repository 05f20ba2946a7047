import Marshal.Read.Source

/-!
A source of array elements that looks before it takes: an element that is not what is asked for is
refused and stays where it is. Texts are not given as values.
-/

namespace Marshal.Slots

/-- Whether the next element, if there is one, is of some kinds. -/
def currentIs (kinds : List NodeKind) (slots : Slots) : Bool :=
  match slots.current? with
  | some node => kinds.contains node.kind
  | none => true

def unlessRefused {Value : Type} (refusal : Fault) (kinds : List NodeKind)
    (take : Slots → Except Fault Value × Slots) (slots : Slots) : Except Fault Value × Slots :=
  if slots.currentIs kinds then take slots else (.error refusal, slots)

def strictInlet (refusal : Fault) : Inlet Slots :=
  { inlet with
    value := unlessRefused refusal [.null, .bool, .int, .uint, .double] inlet.value
    openStruct := unlessRefused refusal [.struct] inlet.openStruct
    openArray := unlessRefused refusal [.array] inlet.openArray }

end Marshal.Slots
