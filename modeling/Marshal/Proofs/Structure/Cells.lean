import Marshal.DeclarationCell
import Mathlib.Tactic

/-!
# What happens in a cell of declarations

Looking for a declaration, building it and keeping it are steps of their own, and a builder may ask the
same cell for others in between, also for the one that it is building. The steps are recorded as
events. Each of them asks something of the cell and does something to it, and from this alone it
follows that one outcome is kept for a type, once and for all, and that every call for the type answers
it.
-/

namespace Marshal

variable {Key : Type} [DecidableEq Key] {Declared : Key → Type}

/-- What happens in a cell: a builder is entered, an outcome is kept, and a call is answered, or finds
that what is kept under its type is not for its type. -/
inductive CellEvent (Declared : Key → Type)
  | entered (key : Key)
  | kept (key : Key) (outcome : Except Fault (Declared key))
  | answered (key : Key) (outcome : Except Fault (Declared key))
  | mismatched (key : Key)

/-- The type that an event is about. -/
def CellEvent.key : CellEvent Declared → Key
  | .entered key | .kept key _ | .answered key _ | .mismatched key => key

/-- An outcome, the cell that it leaves and what has happened until then. -/
structure CellRecord (Declared : Key → Type) (key : Key) where
  outcome : Except Fault (Declared key)
  cell : DeclarationCell Declared
  events : List (CellEvent Declared)

/-- A record without what has happened. -/
def CellRecord.forget {key : Key} (record : CellRecord Declared key) :
    Except Fault (Declared key) × DeclarationCell Declared := (record.outcome, record.cell)

/-- How a call for a type ends with what is kept. -/
def KeptDeclaration.closing (kept : KeptDeclaration Declared) (key : Key) : CellEvent Declared :=
  match kept.at? key with
  | some outcome => .answered key outcome
  | none => .mismatched key

namespace DeclarationCell

/-- Answers a request and records what happens. -/
def recordRequest (key : Key) (build : DeclarationCell Declared → CellRecord Declared key)
    (cell : DeclarationCell Declared) : CellRecord Declared key :=
  match cell.find? key with
  | some kept => ⟨kept.answer key, cell, [kept.closing key]⟩
  | none =>
      let built := build cell
      let (kept, filled) := built.cell.keep key built.outcome
      let keeping := if (built.cell.find? key).isSome then [] else [.kept key built.outcome]
      ⟨kept.answer key, filled, .entered key :: built.events ++ keeping ++ [kept.closing key]⟩

end DeclarationCell

/-- Runs a builder and records what happens. -/
def Builder.record {key : Key} (builder : Builder Declared key) (cell : DeclarationCell Declared) :
    CellRecord Declared key :=
  match builder with
  | .finish outcome => ⟨outcome, cell, []⟩
  | .request other inner next =>
      let asked := DeclarationCell.recordRequest other (fun cell => inner.record cell) cell
      let further := (next asked.outcome).record asked.cell
      ⟨further.outcome, further.cell, asked.events ++ further.events⟩

structure CellCall (Declared : Key → Type) where
  key : Key
  builder : Builder Declared key

/-- What a call answers, beside the type that it is for. -/
structure CellAnswer (Declared : Key → Type) where
  key : Key
  outcome : Except Fault (Declared key)

/-- The answers to some calls, the cell that they leave and what has happened until then. -/
structure CellLog (Declared : Key → Type) where
  answers : List (CellAnswer Declared)
  cell : DeclarationCell Declared
  events : List (CellEvent Declared)

namespace DeclarationCell

/-- Makes some calls one after the other. -/
def answerAll (cell : DeclarationCell Declared) :
    List (CellCall Declared) → List (CellAnswer Declared) × DeclarationCell Declared
  | [] => ([], cell)
  | call :: rest =>
      let (answer, next) := cell.getOrBuild call.key call.builder
      let (answers, last) := next.answerAll rest
      (⟨call.key, answer⟩ :: answers, last)

/-- Makes some calls one after the other and records what happens. -/
def recordAll (cell : DeclarationCell Declared) : List (CellCall Declared) → CellLog Declared
  | [] => ⟨[], cell, []⟩
  | call :: rest =>
      let first := recordRequest call.key call.builder.record cell
      let others := first.cell.recordAll rest
      ⟨⟨call.key, first.outcome⟩ :: others.answers, others.cell, first.events ++ others.events⟩

end DeclarationCell

section Recording

/-- Recording changes nothing. -/
theorem DeclarationCell.record_request_forget {key : Key}
    {record : DeclarationCell Declared → CellRecord Declared key}
    {build : DeclarationCell Declared → Except Fault (Declared key) × DeclarationCell Declared}
    (same : ∀ cell, (record cell).forget = build cell) (cell : DeclarationCell Declared) :
    (recordRequest key record cell).forget = request key build cell := by
  unfold recordRequest request
  cases cell.find? key with
  | some kept => rfl
  | none =>
      rw [← same cell]
      rfl

theorem Builder.record_forget {key : Key} (builder : Builder Declared key)
    (cell : DeclarationCell Declared) : (builder.record cell).forget = builder.run cell := by
  induction builder generalizing cell with
  | finish outcome => rfl
  | request other inner next asking further =>
      have asked := DeclarationCell.record_request_forget asking cell
      rw [Builder.record, Builder.run, ← asked]
      exact further _ _

theorem DeclarationCell.record_all_forget (cell : DeclarationCell Declared)
    (calls : List (CellCall Declared)) :
    ((cell.recordAll calls).answers, (cell.recordAll calls).cell) = cell.answerAll calls := by
  induction calls generalizing cell with
  | nil => rfl
  | cons call rest induction =>
      have first := record_request_forget call.builder.record_forget cell
      rw [answerAll, getOrBuild, ← first, recordAll]
      simp only [CellRecord.forget, ← induction]

end Recording

namespace DeclarationCell

variable {cell middle after : DeclarationCell Declared} {key : Key}
  {events first second : List (CellEvent Declared)} {event : CellEvent Declared}

@[simp] theorem find_empty (key : Key) : (empty : DeclarationCell Declared).find? key = none := rfl

theorem find_kept (cell : DeclarationCell Declared) (key : Key)
    (outcome : Except Fault (Declared key)) (wanted : Key) :
    find? ⟨cell.entries ++ [(key, ⟨key, outcome⟩)]⟩ wanted =
      (cell.find? wanted).or (if key = wanted then some ⟨key, outcome⟩ else none) := by
  unfold find?
  rw [List.find?_append, Option.map_or]
  by_cases same : key = wanted
  · simp [same]
  · simp [same]

/-- That what is kept under each type is for the type. -/
def Typed (cell : DeclarationCell Declared) : Prop :=
  ∀ key kept, cell.find? key = some kept → ∃ outcome, kept = ⟨key, outcome⟩

theorem typed_empty : (empty : DeclarationCell Declared).Typed := nofun

theorem keep_given (cell : DeclarationCell Declared) (outcome : Except Fault (Declared key)) :
    (cell.keep key outcome).1 = (cell.find? key).getD ⟨key, outcome⟩ := by
  unfold keep
  cases cell.find? key <;> rfl

theorem find_keep (cell : DeclarationCell Declared) (outcome : Except Fault (Declared key))
    (wanted : Key) : (cell.keep key outcome).2.find? wanted =
      (cell.find? wanted).or (if key = wanted then some ⟨key, outcome⟩ else none) := by
  unfold keep
  cases found : cell.find? key with
  | some kept =>
      by_cases same : key = wanted
      · subst same
        rw [found]
        rfl
      · simp [same]
  | none => exact find_kept cell key outcome wanted

@[simp] theorem answer_own (key : Key) (outcome : Except Fault (Declared key)) :
    KeptDeclaration.answer ⟨key, outcome⟩ key = outcome := by
  simp [KeptDeclaration.answer, KeptDeclaration.at?]

@[simp] theorem closing_own (key : Key) (outcome : Except Fault (Declared key)) :
    KeptDeclaration.closing ⟨key, outcome⟩ key = .answered key outcome := by
  simp [KeptDeclaration.closing, KeptDeclaration.at?]

/-- What an event asks of the cell and does to it. A builder is entered and an outcome kept only where
nothing is kept for the type, and a call is answered with what is kept. Nothing makes up for a
mismatch. -/
inductive Happens (cell : DeclarationCell Declared) :
    CellEvent Declared → DeclarationCell Declared → Prop
  | entered {key : Key} (free : cell.find? key = none) : Happens cell (.entered key) cell
  | kept {key : Key} {outcome : Except Fault (Declared key)} (free : cell.find? key = none) :
      Happens cell (.kept key outcome) ⟨cell.entries ++ [(key, ⟨key, outcome⟩)]⟩
  | answered {key : Key} {outcome : Except Fault (Declared key)}
      (held : cell.find? key = some ⟨key, outcome⟩) : Happens cell (.answered key outcome) cell

/-- That events happen one after the other. -/
inductive Follows : DeclarationCell Declared → List (CellEvent Declared) →
    DeclarationCell Declared → Prop
  | done (cell : DeclarationCell Declared) : Follows cell [] cell
  | next {cell middle after : DeclarationCell Declared} {event : CellEvent Declared}
      {events : List (CellEvent Declared)} (happens : cell.Happens event middle)
      (follows : Follows middle events after) : Follows cell (event :: events) after

theorem Happens.single (happens : cell.Happens event after) : Follows cell [event] after :=
  .next happens (.done after)

theorem Follows.append (early : Follows cell first middle) (late : Follows middle second after) :
    Follows cell (first ++ second) after := by
  induction early with
  | done _ => exact late
  | next happens _ induction => exact .next happens (induction late)

theorem Follows.split (follows : Follows cell (first ++ second) after) :
    ∃ middle, Follows cell first middle ∧ Follows middle second after := by
  induction first generalizing cell with
  | nil => exact ⟨cell, .done cell, follows⟩
  | cons event events induction =>
      cases follows with
      | next happens further =>
          obtain ⟨middle, early, late⟩ := induction further
          exact ⟨middle, .next happens early, late⟩

/-- The step of the invariant: what an event leaves for each type. -/
theorem Happens.finds (happens : cell.Happens event after) (wanted : Key)
    (kept : KeptDeclaration Declared) :
    after.find? wanted = some kept ↔ cell.find? wanted = some kept ∨
      ∃ outcome, event = .kept wanted outcome ∧ kept = ⟨wanted, outcome⟩ := by
  cases happens with
  | entered _ | answered _ => simp
  | @kept key outcome free =>
      rw [find_kept, Option.or_eq_some_iff]
      by_cases same : key = wanted
      · subst same
        simp [free, eq_comm]
      · simp [same]

/-- After a run a type has what it had before it, or else what has been kept for it. -/
theorem Follows.finds (follows : Follows cell events after) (wanted : Key)
    (kept : KeptDeclaration Declared) :
    after.find? wanted = some kept ↔ cell.find? wanted = some kept ∨
      ∃ outcome, .kept wanted outcome ∈ events ∧ kept = ⟨wanted, outcome⟩ := by
  induction follows with
  | done _ => simp
  | next happens _ induction =>
      rw [induction, happens.finds, or_assoc]
      refine or_congr_right ?_
      simp only [List.mem_cons, or_and_right, exists_or, eq_comm]

theorem Follows.typed (typed : cell.Typed) (follows : Follows cell events after) : after.Typed := by
  intro key kept found
  rcases (follows.finds key kept).mp found with before | ⟨outcome, -, own⟩
  · exact typed key kept before
  · exact ⟨outcome, own⟩

/-- Only an outcome that is kept for a type changes what is kept for it. -/
theorem Follows.unchanged (follows : Follows cell events after)
    (untouched : ∀ outcome, .kept key outcome ∉ events) : after.find? key = cell.find? key := by
  ext kept
  rw [follows.finds]
  simp [untouched]

section Courses

variable {build : DeclarationCell Declared → CellRecord Declared key}

/-- What a call leads to happens in turn, if what its builder leads to does. -/
theorem record_request_follows
    (builds : ∀ cell : DeclarationCell Declared, cell.Typed →
      Follows cell (build cell).events (build cell).cell)
    (typed : cell.Typed) :
    Follows cell (recordRequest key build cell).events (recordRequest key build cell).cell := by
  unfold recordRequest
  cases found : cell.find? key with
  | some kept =>
      obtain ⟨outcome, rfl⟩ := typed key kept found
      simpa using (Happens.answered found).single
  | none =>
      have entered : Follows cell (.entered key :: (build cell).events) (build cell).cell :=
        .next (.entered found) (builds cell typed)
      cases meanwhile : (build cell).cell.find? key with
      | some kept =>
          -- The builder has asked for its own type, and what was kept then stays.
          obtain ⟨outcome, rfl⟩ := entered.typed typed key kept meanwhile
          simpa [keep, meanwhile] using entered.append (Happens.answered meanwhile).single
      | none =>
          have own := find_kept (build cell).cell key (build cell).outcome key
          rw [meanwhile, Option.none_or, if_pos rfl] at own
          simpa [keep, meanwhile] using
            entered.append (.next (.kept meanwhile) (Happens.answered own).single)

end Courses

end DeclarationCell

theorem Builder.record_follows {key : Key} (builder : Builder Declared key)
    {cell : DeclarationCell Declared} (typed : cell.Typed) :
    cell.Follows (builder.record cell).events (builder.record cell).cell := by
  induction builder generalizing cell with
  | finish outcome => exact .done cell
  | request other inner next asking further =>
      have asked := DeclarationCell.record_request_follows (fun _ => asking) typed
      exact asked.append (further _ (asked.typed typed))

namespace DeclarationCell

theorem record_all_follows {cell : DeclarationCell Declared} (typed : cell.Typed)
    (calls : List (CellCall Declared)) :
    cell.Follows (cell.recordAll calls).events (cell.recordAll calls).cell := by
  induction calls generalizing cell with
  | nil => exact .done cell
  | cons call rest induction =>
      have first := record_request_follows (fun _ => call.builder.record_follows) typed
      exact first.append (induction (first.typed typed))

section Answers

variable {cell : DeclarationCell Declared} {events : List (CellEvent Declared)} {key : Key}

/-- What a call answers has been kept before, and nothing else is ever kept for the type. -/
theorem Follows.answered_kept {before later : List (CellEvent Declared)}
    {outcome : Except Fault (Declared key)} (follows : empty.Follows events cell)
    (split : events = before ++ .answered key outcome :: later) :
    .kept key outcome ∈ before ∧ ∀ other, .kept key other ∈ events → other = outcome := by
  rw [split] at follows
  obtain ⟨middle, early, late⟩ := follows.split
  cases late with
  | next happens further =>
      cases happens with
      | answered held =>
          have kept : .kept key outcome ∈ before := by
            rcases (early.finds key _).mp held with nothing | ⟨other, inside, same⟩
            · cases nothing
            · cases same
              exact inside
          refine ⟨kept, fun other inside => ?_⟩
          have found := (further.finds key ⟨key, outcome⟩).mpr (.inl held)
          have also := (follows.finds key ⟨key, other⟩).mpr (.inr ⟨other, split ▸ inside, rfl⟩)
          cases also.symm.trans found
          rfl

/-- A builder is entered before anything is kept for its type. -/
theorem Follows.entered_free {before later : List (CellEvent Declared)}
    (follows : empty.Follows events cell) (split : events = before ++ .entered key :: later)
    (outcome : Except Fault (Declared key)) : .kept key outcome ∉ before := by
  intro inside
  rw [split] at follows
  obtain ⟨middle, early, late⟩ := follows.split
  cases late with
  | next happens _ =>
      cases happens with
      | entered free =>
          have found := (early.finds key _).mpr (.inr ⟨outcome, inside, rfl⟩)
          cases free.symm.trans found

theorem Follows.not_mismatched {after : DeclarationCell Declared}
    (follows : cell.Follows events after) (key : Key) : .mismatched key ∉ events := by
  intro inside
  obtain ⟨before, later, rfl⟩ := List.append_of_mem inside
  obtain ⟨middle, -, late⟩ := follows.split
  cases late with
  | next happens _ => cases happens

theorem record_request_answered (typed : cell.Typed) (builder : Builder Declared key) :
    .answered key (recordRequest key builder.record cell).outcome ∈
      (recordRequest key builder.record cell).events := by
  have built := (builder.record_follows typed).typed typed
  unfold recordRequest
  cases found : cell.find? key with
  | some kept =>
      obtain ⟨outcome, rfl⟩ := typed key kept found
      simp
  | none =>
      dsimp only
      rw [keep_given]
      cases meanwhile : (builder.record cell).cell.find? key with
      | some kept =>
          obtain ⟨outcome, rfl⟩ := built key kept meanwhile
          simp
      | none => simp

theorem record_all_answered (typed : cell.Typed) (calls : List (CellCall Declared)) :
    ∀ answer ∈ (cell.recordAll calls).answers,
      .answered answer.key answer.outcome ∈ (cell.recordAll calls).events := by
  induction calls generalizing cell with
  | nil => exact nofun
  | cons call rest induction =>
      have first := record_request_follows (fun _ => call.builder.record_follows) typed
      rw [recordAll, List.forall_mem_cons]
      exact ⟨List.mem_append_left _ (record_request_answered typed call.builder),
        fun answer inside => List.mem_append_right _ (induction (first.typed typed) answer inside)⟩

end Answers

section Isolation

variable {left right : DeclarationCell Declared} {key : Key}

/-- That two cells hold the same for the types that some events are about. -/
def Alike (left right : DeclarationCell Declared) (events : List (CellEvent Declared)) : Prop :=
  ∀ event ∈ events, right.find? event.key = left.find? event.key

/-- That cells which held the same for a type still do. -/
def StayAlike (left right first second : DeclarationCell Declared) : Prop :=
  ∀ key, right.find? key = left.find? key → second.find? key = first.find? key

theorem Alike.later {first second : DeclarationCell Declared} {events : List (CellEvent Declared)}
    (alike : Alike left right events) (cells : StayAlike left right first second) :
    Alike first second events := fun event inside => cells event.key (alike event inside)

theorem Alike.parts {before later : List (CellEvent Declared)}
    (alike : Alike left right (before ++ later)) : Alike left right before ∧ Alike left right later :=
  ⟨fun event inside => alike event (List.mem_append_left _ inside),
    fun event inside => alike event (List.mem_append_right _ inside)⟩

/-- That the same has happened with the same outcome, in cells that stay alike. -/
structure Concurs (left right : DeclarationCell Declared) (first second : CellRecord Declared key) :
    Prop where
  outcome : second.outcome = first.outcome
  events : second.events = first.events
  cells : StayAlike left right first.cell second.cell

theorem closing_key (kept : KeptDeclaration Declared) (key : Key) : (kept.closing key).key = key := by
  unfold KeptDeclaration.closing
  split <;> rfl

/-- A call goes by what is kept for the types that it leads to, and by nothing else. -/
theorem record_request_concurs {build : DeclarationCell Declared → CellRecord Declared key}
    (builds : Alike left right (build left).events → Concurs left right (build left) (build right))
    (alike : Alike left right (recordRequest key build left).events) :
    Concurs left right (recordRequest key build left) (recordRequest key build right) := by
  unfold recordRequest at alike ⊢
  cases found : left.find? key with
  | some kept =>
      rw [found] at alike
      have same := alike _ List.mem_cons_self
      rw [closing_key, found] at same
      rw [same]
      exact ⟨rfl, rfl, fun _ => id⟩
  | none =>
      rw [found] at alike
      have same : right.find? key = none := (alike _ List.mem_cons_self).trans found
      have inner : Alike left right (build left).events := fun event inside =>
        alike event (by simp [inside])
      obtain ⟨outcome, events, cells⟩ := builds inner
      have own := cells key (same.trans found.symm)
      rw [same]
      refine ⟨?_, ?_, fun wanted before => ?_⟩
      · simp only [keep_given, own, outcome]
      · simp only [keep_given, own, outcome, events]
      · simp only [find_keep, outcome, cells wanted before]

end Isolation

end DeclarationCell

theorem Builder.record_concurs {key : Key} (builder : Builder Declared key)
    {left right : DeclarationCell Declared}
    (alike : DeclarationCell.Alike left right (builder.record left).events) :
    DeclarationCell.Concurs left right (builder.record left) (builder.record right) := by
  induction builder generalizing left right with
  | finish outcome => exact ⟨rfl, rfl, fun _ => id⟩
  | request other inner next asking further =>
      obtain ⟨early, late⟩ := alike.parts
      have asked := DeclarationCell.record_request_concurs asking early
      have beyond := further _ (late.later asked.cells)
      rw [Builder.record, Builder.record, asked.outcome, asked.events]
      exact ⟨beyond.outcome, by rw [beyond.events],
        fun key before => beyond.cells key (asked.cells key before)⟩

namespace DeclarationCell

/-- That whatever a call leads to, by its builder or by one that is entered on the way, is for a type on
the same side as its own. -/
def KeepToSides (side : Key → Bool) (cell : DeclarationCell Declared) :
    List (CellCall Declared) → Prop
  | [] => True
  | call :: rest =>
      let first := recordRequest call.key call.builder.record cell
      (∀ event ∈ first.events, side event.key = side call.key) ∧ KeepToSides side first.cell rest

/-- Calls for other types can be left out, as long as no builder leads from the one to the other. -/
theorem answers_apart {side : Key → Bool} {left right : DeclarationCell Declared}
    {calls : List (CellCall Declared)} (typed : left.Typed) (sides : KeepToSides side left calls)
    (alike : ∀ key, side key = true → right.find? key = left.find? key) :
    (right.recordAll (calls.filter fun call => side call.key)).answers =
      (left.recordAll calls).answers.filter fun answer => side answer.key := by
  induction calls generalizing left right with
  | nil => rfl
  | cons call rest induction =>
      obtain ⟨own, others⟩ := sides
      have follows := record_request_follows (fun _ => call.builder.record_follows) typed
      have further {next : DeclarationCell Declared} := @induction _ next (follows.typed typed) others
      cases chosen : side call.key with
      | true =>
          have first := record_request_concurs call.builder.record_concurs
            (fun event inside => alike event.key ((own event inside).trans chosen))
          rw [List.filter_cons, if_pos chosen, recordAll, recordAll, List.filter_cons, if_pos chosen,
            first.outcome, further fun key inside => first.cells key (alike key inside)]
      | false =>
          have kept (key : Key) (inside : side key = true) :
              (recordRequest call.key call.builder.record left).cell.find? key = left.find? key := by
            refine follows.unchanged fun outcome kept => ?_
            have same : side key = side call.key := own _ kept
            rw [inside, chosen] at same
            cases same
          rw [List.filter_cons, if_neg (by simp [chosen]), recordAll, List.filter_cons,
            if_neg (by simp [chosen])]
          exact further fun key inside => (alike key inside).trans (kept key inside).symm

/-- Whatever calls are made on a cell, recorded with what they lead to, the calls for a type answer
what was kept first for it and nothing else is kept for it, no builder is entered once something is,
and nothing that is kept is ever found to be of another type. What is kept for a type changes by a call
for the type only, and the calls for some types are answered as if there were no others, as long as no
builder leads from the one to the other. -/
theorem cell_answers_consistently (calls : List (CellCall Declared)) :
    let log := empty.recordAll calls
    (log.answers, log.cell) = empty.answerAll calls ∧
    (∀ answer ∈ log.answers, .answered answer.key answer.outcome ∈ log.events) ∧
    (∀ before key outcome later, log.events = before ++ .answered key outcome :: later →
      .kept key outcome ∈ before ∧ ∀ other, .kept key other ∈ log.events → other = outcome) ∧
    (∀ before key later, log.events = before ++ .entered key :: later →
      ∀ outcome, .kept key outcome ∉ before) ∧
    (∀ key, .mismatched key ∉ log.events) ∧
    (∀ further key, (∀ outcome, .kept key outcome ∉ (log.cell.recordAll further).events) →
      (log.cell.recordAll further).cell.find? key = log.cell.find? key) ∧
    ∀ side : Key → Bool, KeepToSides side empty calls →
      (empty.answerAll (calls.filter fun call => side call.key)).1 =
        log.answers.filter fun answer => side answer.key := by
  intro log
  have follows : empty.Follows log.events log.cell := record_all_follows typed_empty calls
  refine ⟨record_all_forget empty calls, record_all_answered typed_empty calls,
    fun before key outcome later => follows.answered_kept,
    fun before key later split outcome => follows.entered_free split outcome,
    follows.not_mismatched, fun further key => ?_, fun side sides => ?_⟩
  · exact (record_all_follows (follows.typed typed_empty) further).unchanged
  · rw [← record_all_forget]
    exact answers_apart typed_empty sides fun _ _ => rfl

end DeclarationCell

namespace Shapes

open DeclarationCell

/-- Declarations that are a text for one type and a number for the other. -/
def Shape : Bool → Type
  | true => String
  | false => Nat

def broken : Fault := .of (.memberNameRepeated "edge" "Shape")

/-- Asks for the number and then for itself, before it comes to a text. -/
def text : Builder Shape true :=
  .request false (.finish (.ok (3 : Nat))) fun _ =>
    .request true (.finish (.error broken)) fun _ => .finish (.ok "late")

def calls : List (CellCall Shape) :=
  [⟨true, text⟩, ⟨false, .finish (.ok (5 : Nat))⟩, ⟨true, .finish (.ok "again")⟩]

end Shapes

open Shapes in
/-- A text whose builder has been overtaken by another one for the same type. -/
theorem DeclarationCell.cell_answers_consistently_overtaken :
    let log := empty.recordAll calls
    log.answers = [⟨true, .error broken⟩, ⟨false, .ok (3 : Nat)⟩, ⟨true, .error broken⟩] ∧
      (∀ other, .kept true other ∈ log.events → other = .error broken) ∧
      (∀ key, .mismatched key ∉ log.events) := by
  intro log
  obtain ⟨-, -, answered, -, matched, -, -⟩ := cell_answers_consistently calls
  have events : log.events =
      [.entered true, .entered false, .kept false (.ok (3 : Nat)), .answered false (.ok (3 : Nat)),
        .entered true, .kept true (.error broken)] ++ .answered true (.error broken) ::
        [.answered true (.error broken), .answered false (.ok (3 : Nat)),
          .answered true (.error broken)] := rfl
  exact ⟨rfl, (answered _ true (.error broken) _ events).2, matched⟩

end Marshal
