import Mathlib.Logic.Function.Basic
import Marshal.Trail
import Marshal.Write.Recorder

/-!
# Where calls write

The calls made on a sink tell by themselves where each of them writes: a container lies in the slot it
was opened in, and an element's index is how many elements its array was given before.
-/

namespace Marshal

/-- The container that a call opens. -/
def SinkCall.opened? (call : SinkCall) : Option Nat :=
  match call.kind with
  | .openStruct handle | .openArray handle => some handle
  | .scalar _ | .empty => none

/-- How many elements a call gives to its container: one without a name, none under a name. -/
def elementsGiven : Option String → Nat
  | some _ => 0
  | none => 1

/-- The containers that calls have opened: where they lie, and how many elements they have. -/
structure Containers where
  trail : Nat → Trail
  size : Nat → Nat

namespace Containers

/-- The outermost container lies nowhere but in itself. -/
def outermost : Containers := ⟨fun _ => [], fun _ => 0⟩

/-- What a call on a container writes: the field it names, or else the next element. -/
def place (containers : Containers) (handle : Nat) (name : Option String) : Trail :=
  containers.trail handle ++
    [match name with
      | some name => .field name
      | none => .index (containers.size handle)]

def slot (containers : Containers) (call : SinkCall) : Trail :=
  containers.place call.handle call.name

def after (containers : Containers) (call : SinkCall) : Containers :=
  let size := Function.update containers.size call.handle
    (containers.size call.handle + elementsGiven call.name)
  match call.opened? with
  | some child =>
      ⟨Function.update containers.trail child (containers.slot call), Function.update size child 0⟩
  | none => ⟨containers.trail, size⟩

/-- The containers after some calls have been made on a sink. -/
def of (calls : List SinkCall) : Containers := calls.foldl after outermost

theorem of_append (calls : List SinkCall) (call : SinkCall) :
    of (calls ++ [call]) = (of calls).after call := List.foldl_append

variable (containers : Containers) {call : SinkCall} {handle : Nat}

theorem trail_after_apart (apart : call.opened? ≠ some handle) :
    (containers.after call).trail handle = containers.trail handle := by
  rw [after]
  split
  · rename_i child opened
    have other : handle ≠ child := by
      rintro rfl
      exact apart opened
    exact Function.update_of_ne other _ _
  · rfl

theorem size_after (apart : call.opened? ≠ some handle) :
    (containers.after call).size handle = containers.size handle +
      if handle = call.handle then elementsGiven call.name else 0 := by
  have given : Function.update containers.size call.handle
      (containers.size call.handle + elementsGiven call.name) handle =
        containers.size handle + if handle = call.handle then elementsGiven call.name else 0 := by
    by_cases same : handle = call.handle
    · subst same
      simp
    · simp [same]
  rw [after]
  split
  · rename_i child opened
    have other : handle ≠ child := by
      rintro rfl
      exact apart opened
    exact (Function.update_of_ne other _ _).trans given
  · exact given

theorem trail_after_opened (opened : call.opened? = some handle) :
    (containers.after call).trail handle = containers.slot call := by
  simp [after, opened]

theorem size_after_opened (opened : call.opened? = some handle) :
    (containers.after call).size handle = 0 := by
  simp [after, opened]

end Containers

namespace Recorder

/-- The containers that have been opened so far. -/
def containers (recorder : Recorder) : Containers := .of recorder.calls

/-- Where the open container lies. -/
def trail (recorder : Recorder) : Trail := recorder.containers.trail recorder.handle

/-- How many elements the open container has. -/
def size (recorder : Recorder) : Nat := recorder.containers.size recorder.handle

/-- What a call on the open container writes. -/
def place (recorder : Recorder) (name : Option String) : Trail :=
  recorder.containers.place recorder.handle name

/-- States that accept every call, inside of a container that has been opened. -/
structure Ready (recorder : Recorder) : Prop where
  accepts : recorder.refusal = none
  inside : recorder.handle ≤ recorder.opened

/-- That some calls lead from a state to a later one inside of the same container: no container that was
open before is moved, and none but this one is given elements. -/
structure Leads (recorder : Recorder) (made : List SinkCall) (left : Recorder) : Prop where
  calls : left.calls = recorder.calls ++ made
  handle : left.handle = recorder.handle
  refusal : left.refusal = recorder.refusal
  opened : recorder.opened ≤ left.opened
  trails : ∀ handle ≤ recorder.opened,
    left.containers.trail handle = recorder.containers.trail handle
  sizes : ∀ handle ≤ recorder.opened, handle ≠ recorder.handle →
    left.containers.size handle = recorder.containers.size handle

namespace Leads

variable {first second third : Recorder} {made further : List SinkCall}

theorem refl (recorder : Recorder) : recorder.Leads [] recorder where
  calls := (List.append_nil _).symm
  handle := rfl
  refusal := rfl
  opened := Nat.le_refl _
  trails _ _ := rfl
  sizes _ _ _ := rfl

theorem trans (leads : first.Leads made second) (beyond : second.Leads further third) :
    first.Leads (made ++ further) third where
  calls := by rw [beyond.calls, leads.calls, List.append_assoc]
  handle := beyond.handle.trans leads.handle
  refusal := beyond.refusal.trans leads.refusal
  opened := Nat.le_trans leads.opened beyond.opened
  trails handle known :=
    (beyond.trails handle (Nat.le_trans known leads.opened)).trans (leads.trails handle known)
  sizes handle known apart :=
    (beyond.sizes handle (Nat.le_trans known leads.opened) (leads.handle ▸ apart)).trans
      (leads.sizes handle known apart)

theorem ready (leads : first.Leads made second) (ready : first.Ready) : second.Ready where
  accepts := leads.refusal.trans ready.accepts
  inside := by
    rw [leads.handle]
    exact Nat.le_trans ready.inside leads.opened

theorem trail (leads : first.Leads made second) (ready : first.Ready) :
    second.trail = first.trail := by
  rw [Recorder.trail, leads.handle]
  exact leads.trails _ ready.inside

end Leads

/-- The state after a call that is accepted. -/
def called (recorder : Recorder) (call : SinkCall) : Recorder :=
  { recorder with calls := recorder.calls ++ [call] }

theorem called_containers (recorder : Recorder) (call : SinkCall) :
    (recorder.called call).containers = recorder.containers.after call :=
  Containers.of_append recorder.calls call

theorem called_leads {recorder : Recorder} {call : SinkCall} (own : call.handle = recorder.handle)
    (fresh : ∀ child ∈ call.opened?, recorder.opened < child) :
    recorder.Leads [call] (recorder.called call) := by
  have apart : ∀ handle ≤ recorder.opened, call.opened? ≠ some handle :=
    fun handle known opens => absurd (fresh handle opens) (Nat.not_lt.mpr known)
  refine ⟨rfl, rfl, rfl, Nat.le_refl _, fun handle known => ?_, fun handle known other => ?_⟩
  · rw [called_containers, Containers.trail_after_apart _ (apart handle known)]
  · rw [called_containers, Containers.size_after _ (apart handle known), own, if_neg other,
      Nat.add_zero]

/-- A call gives its container an element or none, unless it opens that container. -/
theorem called_size {recorder : Recorder} {name : Option String} {kind : CallKind}
    (fresh : ∀ child ∈ SinkCall.opened? ⟨recorder.handle, name, kind⟩, recorder.handle < child) :
    (recorder.called ⟨recorder.handle, name, kind⟩).containers.size recorder.handle =
      recorder.size + elementsGiven name := by
  have apart : SinkCall.opened? ⟨recorder.handle, name, kind⟩ ≠ some recorder.handle :=
    fun opens => absurd (fresh _ opens) (Nat.lt_irrefl _)
  rw [called_containers, Containers.size_after _ apart, if_pos rfl]
  rfl

theorem call_ready {recorder : Recorder} (ready : recorder.Ready) (name : Option String)
    (kind : CallKind) :
    call name kind recorder = (.ok (), recorder.called ⟨recorder.handle, name, kind⟩) := by
  obtain ⟨handle, opened, calls, _⟩ := recorder
  obtain rfl := ready.accepts
  rfl

section Entered

variable (recorder : Recorder) (name : Option String) (kind : Nat → CallKind)

/-- The call that opens the next container. -/
def opening : SinkCall := ⟨recorder.handle, name, kind (recorder.opened + 1)⟩

/-- The state inside of the container that a call has just opened. -/
def entered : Recorder :=
  { recorder.called (recorder.opening name kind) with
    handle := recorder.opened + 1
    opened := recorder.opened + 1 }

variable {recorder name kind}

theorem entered_ready (ready : recorder.Ready) : (recorder.entered name kind).Ready :=
  ⟨ready.accepts, Nat.le_refl _⟩

variable (opens : (recorder.opening name kind).opened? = some (recorder.opened + 1))

include opens

theorem entered_trail : (recorder.entered name kind).trail = recorder.place name :=
  (congrArg (fun containers => containers.trail (recorder.opened + 1))
    (called_containers recorder _)).trans (Containers.trail_after_opened _ opens)

theorem entered_size : (recorder.entered name kind).size = 0 :=
  (congrArg (fun containers => containers.size (recorder.opened + 1))
    (called_containers recorder _)).trans (Containers.size_after_opened _ opens)

/-- What has been done inside of an opened container, seen from the one around it. -/
theorem entered_leads {made : List SinkCall} {left : Recorder} (ready : recorder.Ready)
    (inside : (recorder.entered name kind).Leads made left) :
    recorder.Leads (recorder.opening name kind :: made) { left with handle := recorder.handle } ∧
      left.containers.size recorder.handle = recorder.size + elementsGiven name := by
  have fresh : ∀ child ∈ (recorder.opening name kind).opened?, recorder.opened < child := by
    intro child same
    rw [opens, Option.mem_some_iff] at same
    omega
  have opening := called_leads rfl fresh
  have sizes (handle : Nat) (known : handle ≤ recorder.opened) :
      left.containers.size handle =
        (recorder.called (recorder.opening name kind)).containers.size handle :=
    inside.sizes handle (Nat.le_succ_of_le known) (Nat.ne_of_lt (Nat.lt_succ_of_le known))
  refine ⟨⟨?_, rfl, inside.refusal, Nat.le_trans (Nat.le_succ _) inside.opened, ?_, ?_⟩, ?_⟩
  · exact inside.calls.trans (List.append_assoc _ _ _)
  · intro handle known
    exact (inside.trails handle (Nat.le_succ_of_le known)).trans (opening.trails handle known)
  · intro handle known apart
    exact (sizes handle known).trans (opening.sizes handle known apart)
  · exact (sizes _ ready.inside).trans
      (called_size fun child same => Nat.lt_of_le_of_lt ready.inside (fresh child same))

end Entered

end Recorder

end Marshal
