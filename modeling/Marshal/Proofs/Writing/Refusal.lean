import Marshal.Proofs.RoundTrip.Values
import Marshal.Proofs.Writing.Answering
import Marshal.Proofs.Writing.Paired
import Marshal.Proofs.Writing.Steps

/-!
# A refused call stops the writer

As long as a sink accepts, a writer makes the calls it makes on a sink that accepts everything. The
first refusal is its last call, and it fails with what it was refused with, located where that call was
to write.
-/

namespace Marshal

theorem Recorder.within_ready {recorder : Recorder} {name : Option String} {kind : Nat → CallKind}
    (ready : recorder.Ready) {body : Step Recorder} :
    within name kind body recorder =
      ((body (recorder.entered name kind)).1,
        { (body (recorder.entered name kind)).2 with handle := recorder.handle }) :=
  within_accepted (call_ready ready name (kind (recorder.opened + 1)))

namespace Responder

/-- What a responder's run amounts to, given that of the sink that accepts everything. Either none of
its calls is refused, and both runs are the same, or one is, and is the last. The refused call writes
inside of the slot at `base`, and the trail of the fault goes on from there. -/
inductive Follows (responder : Responder) (base : Trail) (recorder : Recorder)
    (first second : Except Fault Unit × Recorder) : Prop
  | accepted (made : List SinkCall) (leads : recorder.Leads made first.2)
      (accepts : responder.response.firstRefused recorder.calls made = none)
      (same : second = (first.1, responder.under first.2))
  | refused (made : List SinkCall) (leads : recorder.Leads made first.2)
      (refusal : Response.Refused)
      (found : responder.response.firstRefused recorder.calls made = some refusal)
      (trail : Trail) (slot : (Containers.of refusal.before).slot refusal.call = base ++ trail)
      (left : Recorder)
      (stops : second = (.error ⟨refusal.failure.cause, trail ++ refusal.failure.trail⟩, left))
      (calls : left.calls = refusal.before ++ responder.kept refusal.call)

namespace Follows

variable {responder : Responder} {base : Trail} {recorder : Recorder}
  {first second further beyond : Step Recorder}

theorem still (outcome : Except Fault Unit) : responder.Follows base recorder (outcome, recorder)
    (outcome, responder.under recorder) :=
  .accepted [] (.refl recorder) rfl rfl

theorem leads {run other : Except Fault Unit × Recorder}
    (follows : responder.Follows base recorder run other) : ∃ made, recorder.Leads made run.2 := by
  cases follows with
  | accepted made leads => exact ⟨made, leads⟩
  | refused made leads => exact ⟨made, leads⟩

/-- A fault that is located in a slot is located from where that slot is. -/
theorem located {segment : Segment} {change : Fault → Fault}
    (locates : ∀ fault, change fault = ⟨fault.cause, segment :: fault.trail⟩)
    (follows : responder.Follows (base ++ [segment]) recorder (first recorder)
      (second (responder.under recorder))) :
    responder.Follows base recorder (first.mapFault change recorder)
      (second.mapFault change (responder.under recorder)) := by
  rw [Step.map_fault_eq, Step.map_fault_eq]
  cases follows with
  | accepted made leads accepts same =>
      rw [same]
      exact .accepted made leads accepts rfl
  | refused made leads refusal found trail slot left stops calls =>
      refine .refused made leads refusal found (segment :: trail) ?_ left ?_ calls
      · rw [slot, List.append_assoc, List.singleton_append]
      · rw [stops, Except.mapError, locates, List.cons_append]

theorem andThen (follows : responder.Follows base recorder (first recorder)
      (second (responder.under recorder)))
    (goesOn : (first recorder).1 = .ok () →
      responder.Follows base (first recorder).2 (further (first recorder).2)
        (beyond (responder.under (first recorder).2))) :
    responder.Follows base recorder (first.andThen further recorder)
      (second.andThen beyond (responder.under recorder)) := by
  rw [Step.andThen, Step.andThen]
  rcases run : first recorder with ⟨fault | _, next⟩
  · -- The first step stops by itself.
    rw [run] at follows
    cases follows with
    | accepted made leads accepts same =>
        rw [same]
        exact .accepted made leads accepts rfl
    | refused made leads refusal found trail slot left stops calls =>
        rw [stops]
        exact .refused made leads refusal found trail slot left rfl calls
  · rw [run] at follows goesOn
    replace goesOn := goesOn rfl
    cases follows with
    | accepted made leads accepts same =>
        rw [same]
        cases goesOn with
        | accepted more leadsOn acceptsOn sameOn =>
            refine .accepted (made ++ more) (leads.trans leadsOn) ?_ sameOn
            rw [Response.first_refused_append, accepts, ← leads.calls, acceptsOn]
            rfl
        | refused more leadsOn refusal found trail slot left stops calls =>
            refine .refused (made ++ more) (leads.trans leadsOn) refusal ?_ trail slot left stops calls
            rw [Response.first_refused_append, accepts, ← leads.calls, found]
            rfl
    | refused made leads refusal found trail slot left stops calls =>
        obtain ⟨more, leadsOn⟩ := goesOn.leads
        rw [stops]
        refine .refused (made ++ more) (leads.trans leadsOn) refusal ?_ trail slot left rfl calls
        rw [Response.first_refused_append, found]
        rfl

/-- A call of its own either goes through or is the one that is refused. -/
theorem called (ready : recorder.Ready) (name : Option String) (kind : CallKind)
    (opensNone : SinkCall.opened? ⟨recorder.handle, name, kind⟩ = none) :
    responder.Follows (recorder.place name) recorder (Recorder.call name kind recorder)
      (responder.make name kind (responder.under recorder)) := by
  have leads : recorder.Leads [⟨recorder.handle, name, kind⟩]
      (recorder.called ⟨recorder.handle, name, kind⟩) :=
    Recorder.called_leads rfl fun child opens => by simp [opensNone] at opens
  rw [Recorder.call_ready ready]
  cases answer : responder.response recorder.calls ⟨recorder.handle, name, kind⟩ with
  | none =>
      refine .accepted _ leads ?_ (responder.make_accepted answer)
      rw [Response.firstRefused, answer, Response.firstRefused]
  | some failure =>
      obtain ⟨left, stops, calls⟩ := responder.make_refused answer
      refine .refused _ leads ⟨recorder.calls, _, failure⟩ ?_ [] (List.append_nil _).symm left stops
        calls
      rw [Response.firstRefused, answer]

/-- The call that opens a container may be refused, or else one inside of the container. -/
theorem within (ready : recorder.Ready) {name : Option String} {kind : Nat → CallKind}
    (opens : (recorder.opening name kind).opened? = some (recorder.opened + 1))
    (inside : responder.Follows (recorder.entered name kind).trail (recorder.entered name kind)
      (first (recorder.entered name kind))
      (second (responder.under (recorder.entered name kind)))) :
    responder.Follows (recorder.place name) recorder (Recorder.within name kind first recorder)
      (Recorder.withinBy responder.make name kind second (responder.under recorder)) := by
  rw [Recorder.within_ready ready]
  rw [Recorder.entered_trail opens] at inside
  cases answer : responder.response recorder.calls (recorder.opening name kind) with
  | some failure =>
      obtain ⟨made, leads⟩ := inside.leads
      obtain ⟨left, stops, calls⟩ := responder.make_refused answer
      refine .refused _ (Recorder.entered_leads opens ready leads).1
        ⟨recorder.calls, recorder.opening name kind, failure⟩ ?_ [] (List.append_nil _).symm left
        (Recorder.within_refused stops) calls
      rw [Response.firstRefused, answer]
  | none =>
      have accepting (made : List SinkCall) :
          responder.response.firstRefused recorder.calls (recorder.opening name kind :: made) =
            responder.response.firstRefused (recorder.entered name kind).calls made := by
        rw [Response.firstRefused, answer]
        rfl
      have goesIn : Recorder.withinBy responder.make name kind second (responder.under recorder) =
          ((second (responder.under (recorder.entered name kind))).1,
            { (second (responder.under (recorder.entered name kind))).2 with
              handle := recorder.handle }) :=
        Recorder.within_accepted (responder.make_accepted answer)
      rw [goesIn]
      cases inside with
      | accepted made leads accepts same =>
          rw [same]
          exact .accepted _ (Recorder.entered_leads opens ready leads).1
            ((accepting made).trans accepts) rfl
      | refused made leads refusal found trail slot left stops calls =>
          rw [stops]
          exact .refused _ (Recorder.entered_leads opens ready leads).1 refusal
            ((accepting made).trans found) trail slot { left with handle := recorder.handle } rfl calls

end Follows

section Relations

variable (responder : Responder)

/-- What fills a struct, seen from that struct. -/
def Fills (first second : Step Recorder) : Prop :=
  ∀ recorder : Recorder, recorder.Ready →
    responder.Follows recorder.trail recorder (first recorder) (second (responder.under recorder))

/-- What fills an array that has no elements yet. -/
def Lists (first second : Step Recorder) : Prop :=
  ∀ recorder : Recorder, recorder.Ready → recorder.size = 0 →
    responder.Follows recorder.trail recorder (first recorder) (second (responder.under recorder))

/-- What is written at one place, and adds to the container there what belongs there. -/
def Places (name : Option String) (first second : Step Recorder) : Prop :=
  ∀ recorder : Recorder, recorder.Ready →
    responder.Follows (recorder.place name) recorder (first recorder)
        (second (responder.under recorder)) ∧
      ((first recorder).1 = .ok () →
        (first recorder).2.size = recorder.size + elementsGiven name)

variable {responder}

theorem called_places (name : Option String) (kind : CallKind)
    (opensNone : ∀ handle, SinkCall.opened? ⟨handle, name, kind⟩ = none) :
    responder.Places name (Recorder.call name kind) (responder.make name kind) := by
  intro recorder ready
  refine ⟨.called ready name kind (opensNone _), fun _ => ?_⟩
  rw [Recorder.call_ready ready]
  exact Recorder.called_size fun child opens => by simp [opensNone] at opens

theorem within_places {name : Option String} {kind : Nat → CallKind}
    (opens : ∀ handle child, SinkCall.opened? ⟨handle, name, kind child⟩ = some child)
    {first second : Step Recorder} (inside : responder.Lists first second) :
    responder.Places name (Recorder.within name kind first)
      (Recorder.withinBy responder.make name kind second) := by
  intro recorder ready
  have opening := opens recorder.handle (recorder.opened + 1)
  have follows := inside _ (Recorder.entered_ready ready) (Recorder.entered_size opening)
  refine ⟨.within ready opening follows, fun _ => ?_⟩
  obtain ⟨made, leads⟩ := follows.leads
  rw [Recorder.within_ready ready]
  exact (Recorder.entered_leads opening ready leads).2

theorem outlet_places (name : Option String) :
    (Recorder.outlet name).Relates responder.Fills responder.Lists (responder.Places name)
      (Recorder.outletBy responder.make name) where
  put scalar := called_places name (.scalar scalar) fun _ => rfl
  leaveEmpty := by
    cases name with
    | none => exact called_places none .empty fun _ => rfl
    | some name => exact fun recorder _ => ⟨.still (.ok ()), fun _ => rfl⟩
  fail fault := fun recorder _ => ⟨.still (.error fault), fun ok => by cases ok⟩
  withStruct inside := within_places (fun _ _ => rfl) fun recorder ready _ => inside recorder ready
  withArray inside := within_places (fun _ _ => rfl) inside

theorem fills_and_then {first second further beyond : Step Recorder}
    (begins : responder.Fills first second) (goesOn : responder.Fills further beyond) :
    responder.Fills (first.andThen further) (second.andThen beyond) := by
  intro recorder ready
  have follows := begins recorder ready
  refine follows.andThen fun _ => ?_
  obtain ⟨made, leads⟩ := follows.leads
  rw [← leads.trail ready]
  exact goesOn _ (leads.ready ready)

theorem fills_in_field {name : String} {first second : Step Recorder}
    (places : responder.Places (some name) first second) :
    responder.Fills (first.inField name) (second.inField name) := fun recorder ready =>
  .located (fun _ => rfl) (places recorder ready).1

/-- Elements are located by how many there were before them. -/
theorem follows_all_from {firsts seconds : List (Step Recorder)}
    (each : List.Forall₂ (responder.Places none) firsts seconds) {recorder : Recorder}
    (ready : recorder.Ready) :
    responder.Follows recorder.trail recorder (Step.allFrom recorder.size firsts recorder)
      (Step.allFrom recorder.size seconds (responder.under recorder)) := by
  induction each generalizing recorder with
  | nil => exact .still (.ok ())
  | @cons first second rest others head tail induction =>
      obtain ⟨follows, grows⟩ := head recorder ready
      refine .andThen (.located (fun _ => rfl) follows) fun ok => ?_
      obtain ⟨made, leads⟩ := follows.leads
      have goesOn := induction (leads.ready ready)
      rw [leads.trail ready, grows (Step.map_fault_ok ok)] at goesOn
      rw [Step.map_fault_eq]
      exact goesOn

/-- Whatever is written, a responder is followed in it. -/
def pairing (responder : Responder) :
    Pairing Recorder.sink (Recorder.sinkBy responder.make) where
  structs := responder.Fills
  arrays := responder.Lists
  field name := responder.Places (some name)
  next := responder.Places none
  fields_relate name := outlet_places (some name)
  next_relates := outlet_places none
  done := fun _ _ => .still (.ok ())
  fail fault := fun _ _ => .still (.error fault)
  andThen := fills_and_then
  inField := fills_in_field
  allFrom each := fun _ ready empty => empty ▸ follows_all_from each ready

end Relations

end Responder

/-- What can be written: a value under a name or as the next element, or all members of a structure. -/
inductive Writing
  | named (type : Ty) (value : Val) (name : String)
  | next (type : Ty) (value : Val)
  | object (owner : String) (value : Val)

namespace Writing

/-- The slot that is written, from the container it is in. Members have no slot of their own. -/
def root : Writing → Trail
  | .named _ _ name => [.field name]
  | .next _ _ => [.index 0]
  | .object _ _ => []

variable (schema : Schema)

def run {State : Type} (sink : Sink State State) : Writing → Step State
  | .named type value name => schema.write sink type value (sink.field name)
  | .next type value => schema.write sink type value sink.next
  | .object name value => schema.writeObject sink name value

/-- The calls that are made on a sink that accepts all of them, also where the writing fails. -/
def calls (writing : Writing) : List SinkCall :=
  (writing.run schema Recorder.sink (.start none)).2.calls

theorem run_follows (writing : Writing) (responder : Responder) :
    responder.Follows writing.root (.start none)
      (writing.run schema Recorder.sink (.start none))
      (writing.run schema (Recorder.sinkBy responder.make) (.start responder.refusal)) := by
  have ready : (Recorder.start none).Ready := ⟨rfl, le_rfl⟩
  cases writing with
  | named type value name =>
      exact (responder.pairing.write_related schema type value
        (Responder.outlet_places (some name)) _ ready).1
  | next type value =>
      exact (responder.pairing.write_related schema type value
        (Responder.outlet_places none) _ ready).1
  | object name value => exact responder.pairing.write_object_related schema name value _ ready

theorem run_stops {writing : Writing} (responder : Responder) {position : Nat} {call : SinkCall}
    {failure : Fault}
    (refuses : responder.response.Refuses (writing.calls schema) position call failure) :
    ∃ trail left,
      (Containers.of ((writing.calls schema).take position)).slot call = writing.root ++ trail ∧
      writing.run schema (Recorder.sinkBy responder.make) (.start responder.refusal) =
        (.error ⟨failure.cause, trail ++ failure.trail⟩, left) ∧
      left.calls = (writing.calls schema).take position ++ responder.kept call := by
  have first := refuses.first_refused
  cases writing.run_follows schema responder with
  | accepted made leads accepts same =>
      obtain rfl : writing.calls schema = made := leads.calls
      cases accepts.symm.trans first
  | refused made leads refusal found trail slot left stops calls =>
      obtain rfl : writing.calls schema = made := leads.calls
      obtain rfl := Option.some.inj (found.symm.trans first)
      exact ⟨trail, left, slot, stops, calls⟩

end Writing

theorem Responder.refusing_refuses {calls : List SinkCall} {position : Nat} {call : SinkCall}
    (reached : calls[position]? = some call) (failure : Fault) :
    (Responder.refusing position failure).response.Refuses calls position call failure := by
  obtain ⟨inside, -⟩ := List.getElem?_eq_some_iff.mp reached
  refine ⟨reached, fun earlier before other _ => if_neg ?_, if_pos ?_⟩ <;> rw [List.length_take] <;>
    omega

/-- Whatever is written, the first call that a sink refuses is the last one that is made on it. The
calls before it are those that a sink is given that accepts everything; the fault is the one the call
was refused with, and its trail leads from the slot that is written to the one that the call was to
write. A recorder that refuses the call at a position is one such sink. -/
theorem Schema.refused_call_stops_writing (schema : Schema) (writing : Writing)
    (response : Response) (position : Nat) (call : SinkCall) (failure : Fault)
    (refuses : response.Refuses (writing.calls schema) position call failure) :
    ∃ trail,
      (Containers.of ((writing.calls schema).take position)).slot call = writing.root ++ trail ∧
      (∃ left,
        writing.run schema (Recorder.answering response) (.start none) =
          (.error ⟨failure.cause, trail ++ failure.trail⟩, left) ∧
        left.calls = (writing.calls schema).take position ++ [call]) ∧
      ∃ left,
        writing.run schema Recorder.sink (.start (some (position, failure))) =
          (.error ⟨failure.cause, trail ++ failure.trail⟩, left) ∧
        left.calls = (writing.calls schema).take position := by
  obtain ⟨trail, answering, slot, stops, made⟩ :=
    Writing.run_stops schema (.answering response) refuses
  obtain ⟨same, refusing, sameSlot, stopsToo, recorded⟩ :=
    Writing.run_stops schema (.refusing position failure)
      (Responder.refusing_refuses refuses.reached failure)
  obtain rfl : trail = same := List.append_cancel_left (slot.symm.trans sameSlot)
  simp only [Responder.refusing, Recorder.sink_by_call, List.append_nil] at stopsToo recorded
  exact ⟨trail, slot, ⟨answering, stops, made⟩, refusing, stopsToo, recorded⟩

namespace Route

/-- Two stops, the second with two fares, as the next element of an array. -/
def departures : Writing :=
  .next (.sequence .vector (.record "Stop")) (.list [stop "North" [] .absent 0,
    stop "South" [(.text "adult", .int 310), (.text "child", .int 155)] .absent 7])

theorem departures_calls : departures.calls schema =
    [⟨0, none, .openArray 1⟩,
      ⟨1, none, .openStruct 2⟩,
      ⟨2, some "name", .scalar (.text "North")⟩,
      ⟨2, some "fares", .openStruct 3⟩,
      ⟨1, none, .openStruct 4⟩,
      ⟨4, some "name", .scalar (.text "South")⟩,
      ⟨4, some "fares", .openStruct 5⟩,
      ⟨5, some "adult", .scalar (.int 310)⟩,
      ⟨5, some "child", .scalar (.int 155)⟩] := by decide +kernel

end Route

/-- The first fare of the second stop is refused. The other one would be accepted, but is not written
any more. -/
theorem Schema.refused_call_stops_writing_fares :
    let call : SinkCall := ⟨5, some "adult", .scalar (.int 310)⟩
    let failure := Fault.of (.stated .format "no room left")
    let response := (Responder.refusing 7 failure).response
    response.Refuses (Route.departures.calls Route.schema) 7 call failure ∧
      ∃ left,
        Route.departures.run Route.schema (Recorder.answering response) (.start none) =
          (.error ⟨failure.cause, [.index 1, .field "fares", .field "adult"]⟩, left) ∧
        left.calls = (Route.departures.calls Route.schema).take 8 := by
  intro call failure response
  have refuses : response.Refuses (Route.departures.calls Route.schema) 7 call failure :=
    Responder.refusing_refuses (by rw [Route.departures_calls]; rfl) failure
  obtain ⟨trail, slot, ⟨left, stopped, made⟩, -⟩ :=
    Schema.refused_call_stops_writing Route.schema Route.departures response 7 call failure refuses
  rw [Route.departures_calls] at slot
  obtain rfl : [.index 1, .field "fares", .field "adult"] = trail := (List.cons.inj slot).2
  refine ⟨refuses, left, stopped, made.trans ?_⟩
  rw [Route.departures_calls]
  rfl

end Marshal
