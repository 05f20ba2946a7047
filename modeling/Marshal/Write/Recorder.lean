import Marshal.Write.Sink

/-!
A sink that records the calls made on it and may refuse one of them. Handles are numbered in the
order in which containers are opened, the outermost one being zero. The refused call is not
recorded and no state but the record is kept.
-/

namespace Marshal

inductive CallKind
  | scalar (value : Scalar)
  | empty
  | openStruct (handle : Nat)
  | openArray (handle : Nat)
deriving DecidableEq, Repr

/-- One call: the container it is made on, the field it names unless it is positional, and what
it asks for. -/
structure SinkCall where
  handle : Nat
  name : Option String
  kind : CallKind
deriving DecidableEq, Repr

structure Recorder where
  handle : Nat
  opened : Nat
  calls : List SinkCall
  /-- The position of the call that is refused, and the fault it is refused with. -/
  refusal : Option (Nat × Fault)

namespace Recorder

def start (refusal : Option (Nat × Fault)) : Recorder := ⟨0, 0, [], refusal⟩

def call (name : Option String) (kind : CallKind) : Step Recorder := fun recorder =>
  let recorded : Recorder :=
    { recorder with calls := recorder.calls ++ [⟨recorder.handle, name, kind⟩] }
  match recorder.refusal with
  | some (position, fault) =>
      if position = recorder.calls.length then (.error fault, recorder) else (.ok (), recorded)
  | none => (.ok (), recorded)

/-- Opens a container, runs a step inside it and comes back to the container around it. -/
def within (name : Option String) (kind : Nat → CallKind) (body : Step Recorder) :
    Step Recorder := fun recorder =>
  let child := recorder.opened + 1
  match call name (kind child) recorder with
  | (.error fault, unchanged) => (.error fault, unchanged)
  | (.ok (), entered) =>
      let (outcome, left) := body { entered with handle := child, opened := child }
      (outcome, { left with handle := recorder.handle })

def outlet (name : Option String) : Outlet Recorder Recorder Recorder where
  put scalar := call name (.scalar scalar)
  leaveEmpty := match name with
    | some _ => .done
    | none => call none .empty
  withStruct := within name .openStruct
  withArray := within name .openArray

def sink : Sink Recorder Recorder := ⟨fun name => outlet (some name), outlet none⟩

end Recorder

end Marshal
