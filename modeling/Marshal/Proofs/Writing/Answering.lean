import Marshal.Proofs.Writing.Containers

/-!
# Sinks that answer

A sink may answer each call by what has been called before. What it does with a call that it accepts is
no different from what the recorder does that accepts everything.
-/

namespace Marshal

/-- How a sink answers a call, given the calls before it, whether it refused them or not. -/
abbrev Response := List SinkCall → SinkCall → Option Fault

namespace Response

/-- A refused call, the calls before it, and the fault it is refused with. -/
structure Refused where
  before : List SinkCall
  call : SinkCall
  failure : Fault

def firstRefused (response : Response) (earlier : List SinkCall) :
    List SinkCall → Option Refused
  | [] => none
  | call :: rest =>
      match response earlier call with
      | some failure => some ⟨earlier, call, failure⟩
      | none => firstRefused response (earlier ++ [call]) rest

theorem first_refused_append (response : Response) (earlier first second : List SinkCall) :
    response.firstRefused earlier (first ++ second) =
      (response.firstRefused earlier first).or
        (response.firstRefused (earlier ++ first) second) := by
  induction first generalizing earlier with
  | nil => simp [firstRefused]
  | cons call rest induction =>
      rw [List.cons_append, firstRefused, firstRefused]
      cases response earlier call with
      | some failure => rfl
      | none => simpa using induction (earlier ++ [call])

/-- That of some calls the one at a position is the first that is refused. -/
structure Refuses (response : Response) (calls : List SinkCall) (position : Nat) (call : SinkCall)
    (failure : Fault) : Prop where
  reached : calls[position]? = some call
  accepted : ∀ earlier < position, ∀ other, calls[earlier]? = some other →
    response (calls.take earlier) other = none
  refused : response (calls.take position) call = some failure

theorem first_refused_take (response : Response) {earlier calls : List SinkCall} {position : Nat}
    (accepted : ∀ before < position, ∀ other, calls[before]? = some other →
      response (earlier ++ calls.take before) other = none) :
    response.firstRefused earlier (calls.take position) = none := by
  induction calls generalizing earlier position with
  | nil => simp [firstRefused]
  | cons call rest induction =>
      cases position with
      | zero => rfl
      | succ position =>
          have own : response earlier call = none := by
            simpa using accepted 0 position.succ_pos call rfl
          rw [List.take_succ_cons, firstRefused, own]
          apply induction
          intro before earlierStill other found
          simpa using accepted (before + 1) (Nat.succ_lt_succ earlierStill) other found

theorem Refuses.first_refused {response : Response} {calls : List SinkCall} {position : Nat}
    {call : SinkCall} {failure : Fault} (refuses : response.Refuses calls position call failure) :
    response.firstRefused [] calls = some ⟨calls.take position, call, failure⟩ := by
  obtain ⟨inside, own⟩ := List.getElem?_eq_some_iff.mp refuses.reached
  have split : calls = calls.take position ++ call :: calls.drop (position + 1) := by
    rw [← own, List.getElem_cons_drop, List.take_append_drop]
  have append := response.first_refused_append [] (calls.take position)
    (call :: calls.drop (position + 1))
  rw [← split, first_refused_take response refuses.accepted, List.nil_append, firstRefused,
    refuses.refused] at append
  exact append

end Response

namespace Recorder

/-- A call that is recorded whatever it is answered. -/
def answered (response : Response) (name : Option String) (kind : CallKind) : Step Recorder :=
  fun recorder =>
    let made : SinkCall := ⟨recorder.handle, name, kind⟩
    let recorded : Recorder := { recorder with calls := recorder.calls ++ [made] }
    match response recorder.calls made with
    | some failure => (.error failure, recorded)
    | none => (.ok (), recorded)

section Made

variable (make : Option String → CallKind → Step Recorder)

/-- Opens a container by a call, runs a step inside it and comes back. -/
def withinBy (name : Option String) (kind : Nat → CallKind) (body : Step Recorder) :
    Step Recorder := fun recorder =>
  let child := recorder.opened + 1
  match make name (kind child) recorder with
  | (.error fault, left) => (.error fault, left)
  | (.ok (), entered) =>
      let (outcome, left) := body { entered with handle := child, opened := child }
      (outcome, { left with handle := recorder.handle })

section Within

variable {make} {name : Option String} {kind : Nat → CallKind} {body : Step Recorder}
  {recorder left : Recorder}

theorem within_refused {failure : Fault}
    (stops : make name (kind (recorder.opened + 1)) recorder = (.error failure, left)) :
    withinBy make name kind body recorder = (.error failure, left) := by
  rw [withinBy, stops]

theorem within_accepted (goes : make name (kind (recorder.opened + 1)) recorder = (.ok (), left)) :
    let inside : Recorder :=
      { left with handle := recorder.opened + 1, opened := recorder.opened + 1 }
    withinBy make name kind body recorder =
      ((body inside).1, { (body inside).2 with handle := recorder.handle }) := by
  rw [withinBy, goes]

end Within

def outletBy (name : Option String) : Outlet Recorder Recorder Recorder where
  put scalar := make name (.scalar scalar)
  leaveEmpty := match name with
    | some _ => .done
    | none => make none .empty
  withStruct := withinBy make name .openStruct
  withArray := withinBy make name .openArray

/-- The sink whose operations are calls that are made in one way. -/
def sinkBy : Sink Recorder Recorder := ⟨fun name => outletBy make (some name), outletBy make none⟩

theorem sink_by_call : sinkBy call = sink := rfl

end Made

/-- A sink that answers each call as it likes, and records them all. -/
def answering (response : Response) : Sink Recorder Recorder := sinkBy (answered response)

end Recorder

/-- A way of making calls that may be refused. What it keeps of a call that is refused, and how it
answers after that, are its own. -/
structure Responder where
  make : Option String → CallKind → Step Recorder
  response : Response
  refusal : Option (Nat × Fault)
  kept : SinkCall → List SinkCall
  made : ∀ recorder name kind, recorder.refusal = refusal →
    make name kind recorder =
      match response recorder.calls ⟨recorder.handle, name, kind⟩ with
      | some failure =>
          (.error failure,
            { recorder with calls := recorder.calls ++ kept ⟨recorder.handle, name, kind⟩ })
      | none =>
          (.ok (), { recorder with calls := recorder.calls ++ [⟨recorder.handle, name, kind⟩] })

namespace Responder

/-- The sink that answers as it likes. -/
def answering (response : Response) : Responder where
  make := Recorder.answered response
  response := response
  refusal := none
  kept call := [call]
  made _ _ _ _ := rfl

/-- The sink that refuses the call at one position, and keeps no record of it. -/
def refusing (position : Nat) (failure : Fault) : Responder where
  make := Recorder.call
  response before _ := if position = before.length then some failure else none
  refusal := some (position, failure)
  kept _ := []
  made recorder name kind refuses := by
    obtain ⟨handle, opened, calls, _⟩ := recorder
    obtain rfl := refuses
    by_cases same : position = calls.length <;> simp [Recorder.call, same]

/-- A state of the sink that accepts everything, as this one is in while it accepts. -/
def under (responder : Responder) (recorder : Recorder) : Recorder :=
  { recorder with refusal := responder.refusal }

section Made

variable (responder : Responder) {recorder : Recorder} {name : Option String} {kind : CallKind}

theorem make_accepted
    (answer : responder.response recorder.calls ⟨recorder.handle, name, kind⟩ = none) :
    responder.make name kind (responder.under recorder) =
      (.ok (), responder.under (recorder.called ⟨recorder.handle, name, kind⟩)) := by
  rw [responder.made _ _ _ rfl, under, answer]
  rfl

theorem make_refused {failure : Fault}
    (answer : responder.response recorder.calls ⟨recorder.handle, name, kind⟩ = some failure) :
    ∃ left, responder.make name kind (responder.under recorder) = (.error failure, left) ∧
      left.calls = recorder.calls ++ responder.kept ⟨recorder.handle, name, kind⟩ := by
  rw [responder.made _ _ _ rfl, under, answer]
  exact ⟨_, rfl, rfl⟩

end Made

end Responder

end Marshal
