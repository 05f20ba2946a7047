import Marshal.Proofs.Structure.Leaves

/-!
# Which declarations are accepted

A declaration is accepted exactly if it is unambiguous: its names, its fields and all names that it
writes are distinct, extensions taken apart through all levels, and what it extends has been accepted
itself. Any other declaration is rejected for its first call that repeats a name or a field, or else
for the first extension or output, in declaration order, that stands in the way.
-/

namespace Marshal

namespace MemberCall

/-- The names that are written for a call, extensions being taken apart. -/
def outputs : MemberCall → List String
  | .field head _ => [head.name]
  | .extend _ _ (.ok members) => Member.outputsAll members
  | .extend _ _ (.error _) => []

variable {call : MemberCall} {member : Member}

theorem resolve_head (resolved : call.resolve = .ok member) : member.head = call.head := by
  cases call with
  | field head type =>
      cases resolved
      rfl
  | extend head base outcome =>
      cases outcome with
      | error fault => cases resolved
      | ok members =>
          cases resolved
          rfl

theorem resolve_outputs (resolved : call.resolve = .ok member) : member.outputs = call.outputs := by
  cases call with
  | field head type =>
      cases resolved
      rfl
  | extend head base outcome =>
      cases outcome with
      | error fault => cases resolved
      | ok members =>
          cases resolved
          rfl

theorem resolve_failed {fault : Fault} (failed : call.resolve = .error fault) :
    ∃ head base, call = .extend head base (.error fault) := by
  cases call with
  | field head type => cases failed
  | extend head base outcome =>
      cases outcome <;> cases failed
      exact ⟨head, base, rfl⟩

end MemberCall

/-- No two of some members have a name or a field in common. -/
structure MemberHead.Distinct (heads : List MemberHead) : Prop where
  names : (heads.map MemberHead.name).Nodup
  fields : (heads.map MemberHead.id).Nodup

namespace MemberHead

variable {heads later : List MemberHead} {head : MemberHead}

theorem distinct_nil : Distinct [] := ⟨List.nodup_nil, List.nodup_nil⟩

theorem Distinct.snoc (distinct : Distinct heads) (name : head.name ∉ heads.map MemberHead.name)
    (field : head.id ∉ heads.map MemberHead.id) : Distinct (heads ++ [head]) where
  names := by
    rw [List.map_append, List.map_singleton, ← List.concat_eq_append]
    exact distinct.names.concat name
  fields := by
    rw [List.map_append, List.map_singleton, ← List.concat_eq_append]
    exact distinct.fields.concat field

theorem Distinct.before (distinct : Distinct (heads ++ later)) : Distinct heads := by
  obtain ⟨names, fields⟩ := distinct
  rw [List.map_append] at names fields
  exact ⟨names.of_append_left, fields.of_append_left⟩

theorem Distinct.fresh (distinct : Distinct (heads ++ head :: later)) :
    head.name ∉ heads.map MemberHead.name ∧ head.id ∉ heads.map MemberHead.id := by
  obtain ⟨names, fields⟩ := distinct
  rw [List.map_append, List.map_cons, List.nodup_append] at names fields
  exact ⟨fun known => names.2.2 _ known _ List.mem_cons_self rfl,
    fun known => fields.2.2 _ known _ List.mem_cons_self rfl⟩

end MemberHead

namespace Declaration

/-- What the declaration of a structure comes to, where the structures it extends have been declared
in the same way. -/
inductive Declared : Except Fault (List Member) → Prop
  | build (owner : String) {calls : List MemberCall}
      (extended : ∀ head base outcome, .extend head base outcome ∈ calls → Declared outcome) :
      Declared (build owner calls)

/-- That no two calls have a name or a field in common, that everything they extend has been accepted,
and that no name is written twice. -/
structure Unambiguous (calls : List MemberCall) : Prop where
  members : MemberHead.Distinct (calls.map MemberCall.head)
  extended : ∀ head base outcome, .extend head base outcome ∈ calls →
    ∃ members, outcome = .ok members
  outputs : (calls.flatMap MemberCall.outputs).Nodup

/-- The names that are written for some calls, each beside the member that writes it. -/
def written (calls : List MemberCall) : List (String × String) :=
  calls.flatMap fun call => call.outputs.map fun output => (output, call.head.name)

theorem written_outputs (calls : List MemberCall) :
    (written calls).map Prod.fst = calls.flatMap MemberCall.outputs := by
  simp [written, List.map_flatMap, Function.comp_def]

/-- That a call repeats the name of a member before it or, with a name of its own, the field of
one. -/
inductive Repeats (owner : String) (earlier : List MemberHead) (call : MemberCall) : Fault → Prop
  | name (known : call.head.name ∈ earlier.map MemberHead.name) :
      Repeats owner earlier call (.of (.memberNameRepeated call.head.name owner))
  | field {other : MemberHead} (fresh : call.head.name ∉ earlier.map MemberHead.name)
      (known : other ∈ earlier) (same : other.id = call.head.id) :
      Repeats owner earlier call (.of (.fieldRepeated other.name call.head.name owner))

/-- That a call extends what is not declared, or writes a name that is written already, the names
that it writes before that one being new. -/
inductive Clashes (owner : String) (written : List (String × String)) (call : MemberCall) :
    Fault → Prop
  | extension {head : MemberHead} {base : String} {fault : Fault}
      (failed : call = .extend head base (.error fault)) : Clashes owner written call fault
  | output {before after : List String} {output writer : String}
      (outputs : call.outputs = before ++ output :: after)
      (fresh : (written.map Prod.fst ++ before).Nodup)
      (known : (output, writer) ∈ written ++ before.map fun output => (output, call.head.name)) :
      Clashes owner written call (.of (.outputRepeated writer call.head.name owner output))

/-- Why a declaration is rejected: for the first call that repeats a member before it, or else for
the first that clashes with what is written before it. -/
inductive Rejected (owner : String) (calls : List MemberCall) : Fault → Prop
  | repeated {earlier later : List MemberCall} {call : MemberCall} {fault : Fault}
      (split : calls = earlier ++ call :: later)
      (before : MemberHead.Distinct (earlier.map MemberCall.head))
      (repeats : Repeats owner (earlier.map MemberCall.head) call fault) : Rejected owner calls fault
  | clash {earlier later : List MemberCall} {call : MemberCall} {fault : Fault}
      (members : MemberHead.Distinct (calls.map MemberCall.head))
      (split : calls = earlier ++ call :: later) (before : Unambiguous earlier)
      (clashes : Clashes owner (written earlier) call fault) : Rejected owner calls fault

section Members

variable {owner : String} {earlier : List MemberHead} {calls : List MemberCall}

/-- What the scan for repetitions does with a call: it stops there, or goes on with members that are
still distinct. -/
theorem first_repeat_cons (distinct : MemberHead.Distinct earlier) (call : MemberCall)
    (rest : List MemberCall) :
    (∃ fault, firstRepeat owner earlier (call :: rest) = some fault ∧
      Repeats owner earlier call fault) ∨
    firstRepeat owner earlier (call :: rest) = firstRepeat owner (earlier ++ [call.head]) rest ∧
      MemberHead.Distinct (earlier ++ [call.head]) := by
  rw [firstRepeat]
  by_cases name : call.head.name ∈ earlier.map MemberHead.name
  · obtain ⟨head, inside, same⟩ := List.mem_map.mp name
    rw [if_pos (List.any_eq_true.mpr ⟨head, inside, decide_eq_true same⟩)]
    exact .inl ⟨_, rfl, .name name⟩
  · rw [if_neg]
    · cases found : earlier.find? fun head => head.id = call.head.id with
      | some other =>
          have same : other.id = call.head.id := by simpa using List.find?_some found
          exact .inl ⟨_, rfl, .field name (List.mem_of_find?_eq_some found) same⟩
      | none =>
          refine .inr ⟨rfl, distinct.snoc name ?_⟩
          intro field
          obtain ⟨other, inside, same⟩ := List.mem_map.mp field
          exact absurd (decide_eq_true same) (List.find?_eq_none.mp found other inside)
    · intro known
      obtain ⟨head, inside, same⟩ := List.any_eq_true.mp known
      exact name (List.mem_map.mpr ⟨head, inside, of_decide_eq_true same⟩)

theorem first_repeat_none (distinct : MemberHead.Distinct earlier)
    (none : firstRepeat owner earlier calls = none) :
    MemberHead.Distinct (earlier ++ calls.map MemberCall.head) := by
  induction calls generalizing earlier with
  | nil => simpa using distinct
  | cons call rest induction =>
      rcases first_repeat_cons distinct call rest with ⟨fault, found, -⟩ | ⟨further, distinct⟩
      · rw [found] at none
        cases none
      · rw [further] at none
        simpa using induction distinct none

theorem first_repeat_some (distinct : MemberHead.Distinct earlier) {fault : Fault}
    (found : firstRepeat owner earlier calls = some fault) :
    ∃ before call after, calls = before ++ call :: after ∧
      MemberHead.Distinct (earlier ++ before.map MemberCall.head) ∧
        Repeats owner (earlier ++ before.map MemberCall.head) call fault := by
  induction calls generalizing earlier with
  | nil => cases found
  | cons call rest induction =>
      rcases first_repeat_cons distinct call rest with ⟨other, own, repeats⟩ | ⟨further, extended⟩
      · rw [own] at found
        cases found
        exact ⟨[], call, rest, rfl, by simpa using distinct, by simpa using repeats⟩
      · rw [further] at found
        obtain ⟨before, other, after, split, beforeDistinct, repeats⟩ := induction extended found
        refine ⟨call :: before, other, after, congrArg (call :: ·) split, ?_, ?_⟩
        · simpa using beforeDistinct
        · simpa using repeats

end Members

section Outputs

variable {owner : String} {claims : List (String × String)} {calls : List MemberCall}

theorem claim_outputs_written {member : String} {claimed : List (String × String)}
    {outputs : List String} (ok : claimOutputs owner member claims outputs = .ok claimed) :
    claimed = claims ++ outputs.map fun output => (output, member) := by
  induction outputs generalizing claims with
  | nil =>
      cases ok
      simp
  | cons output rest induction =>
      unfold claimOutputs at ok
      split at ok
      · cases ok
      · simpa using induction ok

/-- A claim is refused for the first output that is written already. -/
theorem claim_outputs_failed {member : String} {outputs : List String} {fault : Fault}
    (distinct : (claims.map Prod.fst).Nodup)
    (failed : claimOutputs owner member claims outputs = .error fault) :
    ∃ before output after writer, outputs = before ++ output :: after ∧
      (claims.map Prod.fst ++ before).Nodup ∧
        (output, writer) ∈ claims ++ before.map (fun output => (output, member)) ∧
          fault = .of (.outputRepeated writer member owner output) := by
  induction outputs generalizing claims with
  | nil => cases failed
  | cons output rest induction =>
      unfold claimOutputs at failed
      cases known : claims.find? fun earlier => earlier.1 = output with
      | some earlier =>
          rw [known] at failed
          cases failed
          obtain rfl : earlier.1 = output := by simpa using List.find?_some known
          refine ⟨[], earlier.1, rest, earlier.2, rfl, by simpa using distinct, ?_, rfl⟩
          simpa using List.mem_of_find?_eq_some known
      | none =>
          rw [known] at failed
          have fresh : output ∉ claims.map Prod.fst := by
            intro inside
            obtain ⟨earlier, claimed, same⟩ := List.mem_map.mp inside
            exact absurd (decide_eq_true same) (List.find?_eq_none.mp known earlier claimed)
          have extended : ((claims ++ [(output, member)]).map Prod.fst).Nodup := by
            rw [List.map_append, List.map_singleton, ← List.concat_eq_append]
            exact distinct.concat fresh
          obtain ⟨before, other, after, writer, split, beforeFresh, claimed, same⟩ :=
            induction extended failed
          refine ⟨output :: before, other, after, writer, congrArg (output :: ·) split, ?_, ?_, same⟩
          · simpa using beforeFresh
          · simpa using claimed

theorem resolve_all_members {members : List Member}
    (resolved : resolveAll owner claims calls = .ok members) :
    calls.map MemberCall.resolve = members.map .ok := by
  induction calls generalizing claims members with
  | nil =>
      cases resolved
      rfl
  | cons call rest induction =>
      unfold resolveAll at resolved
      split at resolved
      · cases resolved
      · rename_i member own
        split at resolved
        · cases resolved
        · split at resolved
          · cases resolved
          · rename_i others further
            cases resolved
            rw [List.map_cons, List.map_cons, own, induction further]

/-- Members are refused for the first call that clashes with what is written before it. -/
theorem resolve_all_failed {fault : Fault} (distinct : (claims.map Prod.fst).Nodup)
    (failed : resolveAll owner claims calls = .error fault) :
    ∃ before call after, calls = before ++ call :: after ∧
      (∀ head base outcome, .extend head base outcome ∈ before → ∃ members, outcome = .ok members) ∧
        (claims.map Prod.fst ++ before.flatMap MemberCall.outputs).Nodup ∧
          Clashes owner (claims ++ written before) call fault := by
  induction calls generalizing claims with
  | nil => cases failed
  | cons call rest induction =>
      unfold resolveAll at failed
      split at failed
      · rename_i own declared
        cases failed
        obtain ⟨head, base, extension⟩ := MemberCall.resolve_failed declared
        exact ⟨[], call, rest, rfl, by simp, by simpa using distinct, .extension extension⟩
      · rename_i member resolved
        have outputs := MemberCall.resolve_outputs resolved
        have name : member.name = call.head.name :=
          congrArg MemberHead.name (MemberCall.resolve_head resolved)
        rw [outputs, name] at failed
        split at failed
        · rename_i own refused
          cases failed
          obtain ⟨before, output, after, writer, split, fresh, known, rfl⟩ :=
            claim_outputs_failed distinct refused
          refine ⟨[], call, rest, rfl, by simp, by simpa using distinct, ?_⟩
          rw [written, List.flatMap_nil, List.append_nil]
          exact .output split fresh known
        · rename_i claimed claiming
          obtain ⟨-, own, fresh⟩ := claim_outputs_ok claiming
          obtain rfl := claim_outputs_written claiming
          split at failed
          · rename_i below further
            cases failed
            have names : (claims ++ written [call]).map Prod.fst =
                claims.map Prod.fst ++ call.outputs := by
              rw [List.map_append, written_outputs, List.flatMap_singleton]
            have extended : ((claims ++ written [call]).map Prod.fst).Nodup := by
              rw [names]
              refine List.nodup_append.mpr ⟨distinct, own, ?_⟩
              rintro output known _ inside rfl
              exact fresh output inside known
            have claimed : claims ++ (call.outputs.map fun output => (output, call.head.name)) =
                claims ++ written [call] := by
              rw [written, List.flatMap_singleton]
            rw [claimed] at further
            obtain ⟨before, other, after, split, declared, beforeFresh, clashes⟩ :=
              induction extended further
            refine ⟨call :: before, other, after, congrArg (call :: ·) split, ?_, ?_, ?_⟩
            · intro head base outcome inside
              rcases List.mem_cons.mp inside with rfl | inside
              · cases outcome with
                | error fault => cases resolved
                | ok members => exact ⟨members, rfl⟩
              · exact declared head base outcome inside
            · rw [names, List.append_assoc] at beforeFresh
              exact beforeFresh
            · rwa [List.append_assoc, written, written, ← List.flatMap_append] at clashes
          · cases failed

end Outputs

section Built

variable {owner : String} {calls : List MemberCall} {members : List Member}

theorem resolved_outputs (resolved : calls.map MemberCall.resolve = members.map .ok) :
    calls.flatMap MemberCall.outputs = Member.outputsAll members := by
  induction calls generalizing members with
  | nil =>
      obtain rfl := List.map_eq_nil_iff.mp resolved.symm
      rfl
  | cons call rest induction =>
      cases members with
      | nil => cases resolved
      | cons member others =>
          obtain ⟨own, further⟩ := List.cons_eq_cons.mp resolved
          rw [List.flatMap_cons, Member.outputsAll, induction further,
            MemberCall.resolve_outputs own]

/-- An accepted declaration has a member for each of its calls. -/
theorem build_members (built : build owner calls = .ok members) :
    calls.map MemberCall.resolve = members.map .ok := by
  unfold build at built
  split at built
  · cases built
  · exact resolve_all_members built

theorem built_unambiguous (built : build owner calls = .ok members) : Unambiguous calls where
  members := by
    unfold build at built
    split at built
    · cases built
    · rename_i none
      exact first_repeat_none MemberHead.distinct_nil none
  extended head base outcome inside := by
    have resolved := build_members built
    have member : outcome.map (Member.extend head base) ∈ calls.map MemberCall.resolve :=
      List.mem_map.mpr ⟨_, inside, by cases outcome <;> rfl⟩
    rw [resolved] at member
    obtain ⟨_, -, same⟩ := List.mem_map.mp member
    cases outcome with
    | error fault => cases same
    | ok members => exact ⟨members, rfl⟩
  outputs := by
    rw [resolved_outputs (build_members built)]
    exact (build_ok built).1

theorem build_rejected {fault : Fault} (failed : build owner calls = .error fault) :
    Rejected owner calls fault := by
  unfold build at failed
  split at failed
  · rename_i own found
    cases failed
    obtain ⟨before, call, after, split, distinct, repeats⟩ :=
      first_repeat_some MemberHead.distinct_nil found
    exact .repeated split distinct repeats
  · rename_i none
    have members := first_repeat_none MemberHead.distinct_nil none
    have unwritten : (([] : List (String × String)).map Prod.fst).Nodup := List.nodup_nil
    obtain ⟨before, call, after, split, extended, fresh, clashes⟩ :=
      resolve_all_failed unwritten failed
    refine .clash members split ⟨?_, extended, fresh⟩ clashes
    rw [List.nil_append, split, List.map_append] at members
    exact members.before

theorem Rejected.not_unambiguous {fault : Fault} (rejected : Rejected owner calls fault) :
    ¬ Unambiguous calls := by
  rintro ⟨distinct, extended, outputs⟩
  cases rejected with
  | repeated split before repeats =>
      rw [split, List.map_append, List.map_cons] at distinct
      cases repeats with
      | name known => exact distinct.fresh.1 known
      | field _ known same => exact distinct.fresh.2 (same ▸ List.mem_map_of_mem known)
  | @clash earlier later call _ _ split _ clashes =>
      subst split
      cases clashes with
      | @extension head base _ failed =>
          obtain ⟨members, same⟩ := extended head base (.error fault) (by simp [failed])
          cases same
      | @output before after output writer names _ known =>
          have claimed : output ∈ earlier.flatMap MemberCall.outputs ++ before := by
            rw [← written_outputs]
            rcases List.mem_append.mp known with known | known
            · exact List.mem_append_left _ (List.mem_map_of_mem known)
            · obtain ⟨name, inside, same⟩ := List.mem_map.mp known
              cases same
              exact List.mem_append_right _ inside
          rw [List.flatMap_append, List.flatMap_cons, names, List.append_assoc,
            ← List.append_assoc, List.nodup_append] at outputs
          exact outputs.2.2 output claimed output List.mem_cons_self rfl

theorem built_iff_unambiguous (owner : String) (calls : List MemberCall) :
    (∃ members, build owner calls = .ok members) ↔ Unambiguous calls := by
  constructor
  · rintro ⟨members, built⟩
    exact built_unambiguous built
  · intro unambiguous
    cases outcome : build owner calls with
    | ok members => exact ⟨members, rfl⟩
    | error fault => exact absurd unambiguous (build_rejected outcome).not_unambiguous

/-- The fault of a declaration is the declaration's own, and lies nowhere in a document. -/
theorem Declared.own_fault {outcome : Except Fault (List Member)} (declared : Declared outcome)
    {fault : Fault} (failed : outcome = .error fault) :
    fault.kind = .declaration ∧ fault.trail = [] := by
  induction declared generalizing fault with
  | build owner extended induction =>
      cases build_rejected failed with
      | repeated split before repeats =>
          cases repeats <;> exact ⟨rfl, rfl⟩
      | clash members split before clashes =>
          cases clashes with
          | @extension head base _ extension =>
              exact induction head base (.error fault) (by simp [split, extension]) rfl
          | output _ _ _ => exact ⟨rfl, rfl⟩

/-- A declaration is accepted exactly if it is unambiguous, and then has a member for each of its
calls. Otherwise it is rejected with a declaration fault, for the first call that repeats a name or a
field or, where there is none, for the first extension or output that stands in the way. -/
theorem accepted_iff_unambiguous (owner : String) {calls : List MemberCall}
    (extended : ∀ head base outcome, .extend head base outcome ∈ calls → Declared outcome) :
    ((∃ members, build owner calls = .ok members) ↔ Unambiguous calls) ∧
      (∀ members, build owner calls = .ok members →
        calls.map MemberCall.resolve = members.map .ok) ∧
      ∀ fault, build owner calls = .error fault →
        fault.kind = .declaration ∧ Rejected owner calls fault := by
  refine ⟨built_iff_unambiguous owner calls, fun members => build_members, ?_⟩
  intro fault failed
  exact ⟨((Declared.build owner extended).own_fault failed).1, build_rejected failed⟩

end Built

end Declaration

namespace Journey

def head (name : String) (offset : Nat) (type : Ty) : MemberHead :=
  ⟨name, ⟨offset, name, type⟩, [name]⟩

def place : List MemberCall := [.field (head "name" 0 .string) .string]

/-- A visit to a place, and how long it takes if that is known. -/
def visit : List MemberCall :=
  [.extend (head "place" 0 (.record "Place")) "Place" (Declaration.build "Place" place),
    .field (head "minutes" 24 (.option (.int .u8))) (.option (.int .u8))]

theorem place_declared : Declaration.Declared (Declaration.build "Place" place) :=
  .build "Place" (by simp [place])

theorem visit_declared : Declaration.Declared (Declaration.build "Visit" visit) := by
  apply Declaration.Declared.build
  intro head base outcome inside
  obtain ⟨-, -, rfl⟩ : _ ∧ _ ∧ outcome = Declaration.build "Place" place := by
    simpa [visit] using inside
  exact place_declared

end Journey

/-- A visit that is extended by a name of its own: the name of the place, which is two levels away,
stands in the way. -/
theorem Declaration.accepted_iff_unambiguous_nested :
    let calls : List MemberCall :=
      [.extend (Journey.head "visit" 0 (.record "Visit")) "Visit" (build "Visit" Journey.visit),
        .field (Journey.head "name" 32 .string) .string]
    let fault : Fault := .of (.outputRepeated "visit" "name" "Trip" "name")
    (∀ head base outcome, .extend head base outcome ∈ calls → Declared outcome) ∧
      build "Trip" calls = .error fault ∧ ¬ Unambiguous calls ∧
        fault.kind = .declaration ∧ Rejected "Trip" calls fault := by
  intro calls fault
  have extended : ∀ head base outcome, .extend head base outcome ∈ calls → Declared outcome := by
    intro head base outcome inside
    obtain ⟨-, -, rfl⟩ : _ ∧ _ ∧ outcome = build "Visit" Journey.visit := by
      simpa [calls] using inside
    exact Journey.visit_declared
  have failed : build "Trip" calls = .error fault := by rfl
  obtain ⟨accepted, -, rejected⟩ := accepted_iff_unambiguous "Trip" extended
  refine ⟨extended, failed, ?_, rejected fault failed⟩
  intro unambiguous
  obtain ⟨members, built⟩ := accepted.mpr unambiguous
  rw [failed] at built
  cases built

end Marshal
