import Marshal.Proofs.Settings.Declaring
import Marshal.Settings.Global

/-!
# Registrations in any order

Registrations are declared in name order. Where their names are distinct, this forgets the order in
which they were collected, and one registration stands in the way of another by its type only: what
it comes to depends on the registry that all of them start from, and on whether its type has been
declared under a smaller name. So a type that was free ends up under the smallest of its names for
which the declaration succeeds, and a declaration that fails might as well not have been registered.
-/

namespace Marshal

namespace Settings

section NameOrder

variable {registrations others : List Registration}

/-- That registrations stand in name order, with no name twice. -/
def InTurn (registrations : List Registration) : Prop :=
  registrations.Pairwise fun left right => left.name < right.name

theorem InTurn.unique (ordered : InTurn registrations) (also : InTurn others)
    (same : registrations.Perm others) : registrations = others :=
  same.eq_of_pairwise (fun _ _ _ _ before after => absurd after (String.lt_asymm before)) ordered also

theorem name_order_perm (registrations : List Registration) :
    (inNameOrder registrations).Perm registrations := List.mergeSort_perm _ _

theorem name_order_in_turn (distinct : (registrations.map Registration.name).Nodup) :
    InTurn (inNameOrder registrations) := by
  have sorted : (inNameOrder registrations).Pairwise fun left right => left.name ≤ right.name := by
    have counts (left right : Registration) :
        (!decide (right.name < left.name)) = true ↔ left.name ≤ right.name := by
      rw [Bool.not_eq_true', decide_eq_false_iff_not, String.not_lt]
    rw [inNameOrder]
    refine (List.pairwise_mergeSort (fun first second third => ?_) (fun left right => ?_)
      registrations).imp fun {left right} => (counts left right).mp
    · rw [counts, counts, counts]
      exact String.le_trans
    · rw [Bool.or_eq_true, counts, counts]
      exact String.le_total left.name right.name
  have apart : (inNameOrder registrations).Pairwise fun left right => left.name ≠ right.name := by
    have names := ((name_order_perm registrations).map Registration.name).nodup_iff.mpr distinct
    exact List.pairwise_map.mp names
  refine (sorted.and apart).imp fun {left right} both => ?_
  rcases Entries.name_cases left.name right.name with before | same | after
  · exact before
  · exact absurd same both.2
  · exact absurd after (String.not_lt.mpr both.1)

/-- The registrations whose turn is before that of one. -/
def smaller (registrations : List Registration) (registration : Registration) : List Registration :=
  registrations.filter fun other => other.name < registration.name

variable {registration : Registration}

/-- The others come before and after a registration in the order that they have without it. -/
theorem name_order_split (distinct : (registrations.map Registration.name).Nodup)
    (inside : registration ∈ registrations) :
    ∃ later, inNameOrder registrations =
        inNameOrder (smaller registrations registration) ++ registration :: later ∧
      inNameOrder (registrations.erase registration) =
        inNameOrder (smaller registrations registration) ++ later := by
  have ordered := name_order_in_turn distinct
  have same := name_order_perm registrations
  obtain ⟨before, later, split⟩ := List.append_of_mem (same.mem_iff.mpr inside)
  rw [split] at ordered same
  obtain ⟨first, further, crossing⟩ := List.pairwise_append.mp ordered
  obtain ⟨after, last⟩ := List.pairwise_cons.mp further
  have earlier : before = smaller (before ++ registration :: later) registration := by
    have own : smaller before registration = before :=
      List.filter_eq_self.mpr fun other known =>
        decide_eq_true (crossing other known registration List.mem_cons_self)
    have none : smaller (registration :: later) registration = [] := by
      refine List.filter_eq_nil_iff.mpr fun other known => ?_
      rcases List.mem_cons.mp known with rfl | known
      · simp
      · simpa using String.lt_asymm (after other known)
    rw [smaller, List.filter_append, ← smaller, ← smaller, own, none, List.append_nil]
  have names : (smaller registrations registration).map Registration.name |>.Nodup :=
    distinct.sublist (List.filter_sublist.map _)
  have turn : inNameOrder (smaller registrations registration) = before := by
    refine (name_order_in_turn names).unique first ?_
    rw [earlier]
    exact (name_order_perm _).trans (same.symm.filter _)
  refine ⟨later, by rw [split, turn], ?_⟩
  have rest : (registrations.erase registration).map Registration.name |>.Nodup :=
    distinct.sublist (List.erase_sublist.map _)
  rw [turn]
  refine (name_order_in_turn rest).unique ?_ ?_
  · exact List.pairwise_append.mpr ⟨first, last, fun left known right beyond =>
      crossing left known right (List.mem_cons_of_mem _ beyond)⟩
  · refine (name_order_perm _).trans ?_
    have moved : (registration :: (before ++ later)).Perm registrations :=
      List.perm_middle.symm.trans same
    exact (List.cons_perm_iff_perm_erase.mp moved).2.symm

end NameOrder

/-- That a registry has the settings of another one, and beside them only such that some registrations
are for. -/
structure Extended (before after : Settings) (registrations : List Registration) : Prop where
  entries : ∀ name entry, before.entries.get? name = some entry →
    after.entries.get? name = some entry
  bindings : ∀ type name, before.boundName? type = some name → after.boundName? type = some name
  names : ∀ name, name ∉ registrations.map Registration.name →
    after.entries.get? name = before.entries.get? name
  types : ∀ type, type ∉ registrations.map Registration.type →
    after.boundName? type = before.boundName? type
  config : after.config = before.config

namespace Extended

variable {before middle after : Settings} {first second : List Registration}

theorem refl (settings : Settings) (registrations : List Registration) :
    Extended settings settings registrations :=
  ⟨fun _ _ => id, fun _ _ => id, fun _ _ => rfl, fun _ _ => rfl, rfl⟩

theorem trans (early : Extended before middle first) (late : Extended middle after second) :
    Extended before after (first ++ second) where
  entries name entry found := late.entries name entry (early.entries name entry found)
  bindings type name bound := late.bindings type name (early.bindings type name bound)
  names name absent := by
    rw [List.map_append, List.mem_append, not_or] at absent
    rw [late.names name absent.2, early.names name absent.1]
  types type absent := by
    rw [List.map_append, List.mem_append, not_or] at absent
    rw [late.types type absent.2, early.types type absent.1]
  config := late.config.trans early.config

end Extended

section Step

variable [Json.NumberReader] {schema : Schema} {file : FileState} {settings : Settings}
  {registration : Registration}

/-- That the name of a registration is free, and that nothing is wrong with what the backing file has
for it. This is what the declaration of a type asks for that is not declared yet. -/
def Suits (schema : Schema) (file : FileState) (settings : Settings) (registration : Registration) :
    Prop :=
  settings.entries.get? registration.name = none ∧
    ∃ held, backedValue schema file settings.config registration.type registration.name
      (schema.default registration.type) = .ok held

/-- What becomes of a registration: it is refused and leaves no trace, or its setting is there already,
or it is added. -/
inductive Attempted (schema : Schema) (file : FileState) (before : Settings)
    (registration : Registration) (result : SettingsResult) : Prop
  | refused {fault : SettingsFault} (outcome : result.outcome = .error fault)
      (unsuited : before.boundName? registration.type = none →
        ¬ Suits schema file before registration)
      (unchanged : result.settings = before)
  | known (bound : before.boundName? registration.type = some registration.name)
      (outcome : result.outcome = .ok ()) (unchanged : result.settings = before)
  | added {entry : Entry} (unbound : before.boundName? registration.type = none)
      (suits : Suits schema file before registration) (outcome : result.outcome = .ok ())
      (changed : ChangedIn before result.settings registration.type registration.name entry)

theorem declare_attempted (schema : Schema) (file : FileState) (registration : Registration)
    (consistent : Consistent settings) : Attempted schema file settings registration
      (declare schema file settings registration.type registration.name) := by
  have table : FollowsTable schema file settings registration.type registration.name
      (schema.default registration.type) false
        (declare schema file settings registration.type registration.name) :=
    declare_value_table consistent
  cases bound : settings.boundName? registration.type with
  | some old =>
      by_cases same : old = registration.name
      · subst same
        obtain ⟨outcome, unchanged⟩ := table.kept bound rfl
        exact .known bound outcome unchanged
      · obtain ⟨outcome, unchanged⟩ := table.elsewhere old bound same rfl
        exact .refused outcome (fun unbound => absurd (bound.symm.trans unbound) nofun) unchanged
  | none =>
      cases found : settings.entries.get? registration.name with
      | some existing =>
          obtain ⟨outcome, unchanged⟩ := table.taken bound existing found
          exact .refused outcome (fun _ suits => absurd (found.symm.trans suits.1) nofun) unchanged
      | none =>
          have entered := table.entered bound found
          cases backed : backedValue schema file settings.config registration.type
            registration.name (schema.default registration.type) with
          | ok held =>
              rw [backed] at entered
              exact .added bound ⟨found, held, backed⟩ entered.1 entered.2
          | error fault =>
              rw [backed] at entered
              refine .refused entered.1 ?_ entered.2
              rintro - ⟨-, held, other⟩
              rw [backed] at other
              cases other

theorem Attempted.extended {result : SettingsResult}
    (attempted : Attempted schema file settings registration result) :
    Extended settings result.settings [registration] := by
  cases attempted with
  | refused _ _ unchanged | known _ _ unchanged =>
      rw [unchanged]
      exact .refl _ _
  | added unbound suits _ changed =>
      have apart : ∀ name, settings.boundName? registration.type ≠ some name := by
        rw [unbound]
        exact nofun
      have named : ∀ name, name ≠ registration.name →
          result.settings.entries.get? name = settings.entries.get? name :=
        fun name different => changed.entries name different (apart name)
      refine ⟨fun name entry found => ?_, fun type name bound => ?_, fun name absent => ?_,
        fun type absent => ?_, changed.config⟩
      · refine (named name ?_).trans found
        rintro rfl
        cases found.symm.trans suits.1
      · refine (changed.bindings type ?_).trans bound
        rintro rfl
        exact apart name bound
      · exact named name (by simpa using absent)
      · exact changed.bindings type (by simpa using absent)

theorem Attempted.ok_iff {result : SettingsResult}
    (attempted : Attempted schema file settings registration result)
    (unbound : settings.boundName? registration.type = none) :
    result.outcome = .ok () ↔ Suits schema file settings registration := by
  cases attempted with
  | refused outcome unsuited _ =>
      rw [outcome]
      exact ⟨nofun, fun suits => absurd suits (unsuited unbound)⟩
  | known bound _ _ => cases bound.symm.trans unbound
  | added _ suits outcome _ => exact ⟨fun _ => suits, fun _ => outcome⟩

/-- Settings that are added in between make no difference to a registration of another name. -/
theorem suits_extended (schema : Schema) (file : FileState) {after : Settings}
    {registrations : List Registration} (extended : Extended settings after registrations)
    (fresh : registration.name ∉ registrations.map Registration.name) :
    Suits schema file after registration ↔ Suits schema file settings registration := by
  rw [Suits, Suits, extended.names _ fresh, extended.config]

end Step

section Run

variable [Json.NumberReader] (schema : Schema) (file : FileState) {settings : Settings}
  {registrations first second : List Registration} {registration : Registration}

/-- The registry that some registrations leave. -/
def declaredAll (settings : Settings) (registrations : List Registration) : Settings :=
  (declareRegistered schema file settings registrations).1

theorem declared_all_cons : declaredAll schema file settings (registration :: registrations) =
    declaredAll schema file
      (declare schema file settings registration.type registration.name).settings registrations :=
  rfl

theorem declared_all_append : declaredAll schema file settings (first ++ second) =
    declaredAll schema file (declaredAll schema file settings first) second := by
  induction first generalizing settings with
  | nil => rfl
  | cons registration rest induction =>
      rw [List.cons_append, declared_all_cons, declared_all_cons, induction]

theorem declared_all_consistent (consistent : Consistent settings)
    (registrations : List Registration) :
    Consistent (declaredAll schema file settings registrations) := by
  induction registrations generalizing settings with
  | nil => exact consistent
  | cons registration rest induction =>
      exact induction (declare_value_consistent schema file settings _ _ _ false consistent)

theorem declared_all_extended (consistent : Consistent settings)
    (registrations : List Registration) :
    Extended settings (declaredAll schema file settings registrations) registrations := by
  induction registrations generalizing settings with
  | nil => exact .refl _ _
  | cons registration rest induction =>
      have step := (declare_attempted schema file registration consistent).extended
      exact step.trans
        (induction (declare_value_consistent schema file settings _ _ _ false consistent))

/-- A type that none of its registrations suits stays undeclared. -/
theorem declared_all_unbound (consistent : Consistent settings)
    (distinct : (registrations.map Registration.name).Nodup) {type : Ty}
    (unbound : settings.boundName? type = none)
    (unsuited : ∀ registration ∈ registrations, registration.type = type →
      ¬ Suits schema file settings registration) :
    (declaredAll schema file settings registrations).boundName? type = none := by
  induction registrations generalizing settings with
  | nil => exact unbound
  | cons registration rest induction =>
      obtain ⟨fresh, further⟩ := List.nodup_cons.mp distinct
      have attempted := declare_attempted schema file registration consistent
      have still : (declare schema file settings registration.type
          registration.name).settings.boundName? type = none := by
        by_cases own : registration.type = type
        · subst own
          cases attempted with
          | refused _ _ unchanged => rw [unchanged, unbound]
          | known bound _ _ => cases bound.symm.trans unbound
          | added _ suits _ _ => exact absurd suits (unsuited _ List.mem_cons_self rfl)
        · rw [attempted.extended.types type (by simpa using Ne.symm own), unbound]
      refine induction (declare_value_consistent schema file settings _ _ _ false consistent) further
        still fun other inside own suits => unsuited other (List.mem_cons_of_mem _ inside) own ?_
      refine (suits_extended schema file attempted.extended ?_).mp suits
      rw [List.map_singleton, List.mem_singleton]
      intro same
      exact fresh (same ▸ List.mem_map_of_mem inside)

/-- A type is declared under the first of its registrations that suits it. -/
theorem declared_all_bound (consistent : Consistent settings)
    (distinct : ((first ++ registration :: second).map Registration.name).Nodup)
    (unbound : settings.boundName? registration.type = none)
    (unsuited : ∀ other ∈ first, other.type = registration.type →
      ¬ Suits schema file settings other)
    (suits : Suits schema file settings registration) :
    (declaredAll schema file settings (first ++ registration :: second)).boundName?
      registration.type = some registration.name := by
  rw [List.map_append, List.map_cons, List.nodup_append] at distinct
  obtain ⟨firstDistinct, -, crossing⟩ := distinct
  have fresh : registration.name ∉ first.map Registration.name :=
    fun known => crossing _ known _ List.mem_cons_self rfl
  have kept := declared_all_consistent schema file consistent first
  have still := declared_all_unbound schema file consistent firstDistinct unbound unsuited
  have attempted := declare_attempted schema file registration kept
  have added := (suits_extended schema file (declared_all_extended schema file consistent first)
    fresh).mpr suits
  rw [declared_all_append, declared_all_cons]
  refine (declared_all_extended schema file
    (declare_value_consistent schema file _ _ _ _ false kept) second).bindings _ _ ?_
  cases attempted with
  | refused _ unsuited _ => exact absurd added (unsuited still)
  | known bound _ _ => cases bound.symm.trans still
  | added _ _ _ changed => exact changed.bound

end Run

/-- That a name is the smallest one for which something holds. -/
structure Smallest (holds : String → Prop) (name : String) : Prop where
  own : holds name
  least : ∀ smaller, smaller < name → ¬ holds smaller

section Turns

variable [Json.NumberReader] (schema : Schema) (file : FileState) (settings : Settings)
  (registrations : List Registration)

/-- The registry in which a registration is declared: the one that those of smaller names leave. -/
def turnOf (registration : Registration) : Settings :=
  (settings.declareAll schema file (smaller registrations registration)).1

/-- That a registration is declared when its turn comes. -/
def SucceedsInTurn (registration : Registration) : Prop :=
  (declare schema file (turnOf schema file settings registrations registration) registration.type
    registration.name).outcome = .ok ()

/-- That a type is registered under a name, in which nothing stands in its way at the start. -/
def SuitsUnder (type : Ty) (name : String) : Prop :=
  ⟨type, name⟩ ∈ registrations ∧ Suits schema file settings ⟨type, name⟩

variable {schema file settings registrations} {registration : Registration} {type : Ty}
  {name : String}

/-- Either no name suits a type, or the first that does is the smallest. -/
theorem smallest_or_none (schema : Schema) (file : FileState) (consistent : Consistent settings)
    (distinct : (registrations.map Registration.name).Nodup)
    (unbound : settings.boundName? type = none) :
    (∃ name, Smallest (SuitsUnder schema file settings registrations type) name ∧
      (settings.declareAll schema file registrations).1.boundName? type = some name) ∨
    (∀ name, ¬ SuitsUnder schema file settings registrations type name) ∧
      (settings.declareAll schema file registrations).1.boundName? type = none := by
  classical
  have ordered := name_order_in_turn distinct
  have same := name_order_perm registrations
  have names : ((inNameOrder registrations).map Registration.name).Nodup :=
    (same.map _).nodup_iff.mpr distinct
  cases found : (inNameOrder registrations).find? fun registration =>
      decide (registration.type = type ∧ Suits schema file settings registration) with
  | none =>
      have unsuited : ∀ registration ∈ inNameOrder registrations, registration.type = type →
          ¬ Suits schema file settings registration := fun registration inside own suits =>
        List.find?_eq_none.mp found registration inside (decide_eq_true ⟨own, suits⟩)
      refine .inr ⟨?_, declared_all_unbound schema file consistent names unbound unsuited⟩
      rintro name ⟨inside, suits⟩
      exact unsuited _ (same.mem_iff.mpr inside) rfl suits
  | some registration =>
      obtain ⟨holds, first, second, split, others⟩ := List.find?_eq_some_iff_append.mp found
      obtain ⟨rfl, suits⟩ := of_decide_eq_true holds
      have unsuited : ∀ other ∈ first, other.type = registration.type →
          ¬ Suits schema file settings other := fun other inside own suits => by
        simpa [own, suits] using others other inside
      have inside : registration ∈ registrations := by
        refine same.mem_iff.mp ?_
        rw [split]
        exact List.mem_append_right _ List.mem_cons_self
      rw [split] at names ordered same
      refine .inl ⟨registration.name, ⟨⟨inside, suits⟩, ?_⟩, ?_⟩
      · rintro smaller before ⟨known, other⟩
        obtain ⟨-, further, -⟩ := List.pairwise_append.mp ordered
        rcases List.mem_append.mp (same.mem_iff.mpr known) with early | late
        · exact unsuited _ early rfl other
        · rcases List.mem_cons.mp late with own | late
          · exact String.lt_irrefl _ (congrArg Registration.name own ▸ before)
          · exact String.lt_asymm before ((List.pairwise_cons.mp further).1 _ late)
      · have bound := declared_all_bound schema file consistent names unbound unsuited suits
        rwa [← split] at bound

theorem bound_iff_smallest (consistent : Consistent settings)
    (distinct : (registrations.map Registration.name).Nodup)
    (unbound : settings.boundName? type = none) :
    (settings.declareAll schema file registrations).1.boundName? type = some name ↔
      Smallest (SuitsUnder schema file settings registrations type) name := by
  rcases smallest_or_none schema file consistent distinct unbound with
    ⟨first, smallest, bound⟩ | ⟨none, still⟩
  · rw [bound, Option.some.injEq]
    refine ⟨fun same => same ▸ smallest, fun other => ?_⟩
    rcases Entries.name_cases first name with before | same | after
    · exact absurd smallest.own (other.least _ before)
    · exact same
    · exact absurd other.own (smallest.least _ after)
  · rw [still]
    exact ⟨nofun, fun smallest => absurd smallest.own (none name)⟩

/-- A registration is declared in its turn if it suits, unless its type has found a name before. -/
theorem succeeds_in_turn_iff (consistent : Consistent settings)
    (distinct : (registrations.map Registration.name).Nodup)
    (unbound : settings.boundName? registration.type = none) (inside : registration ∈ registrations) :
    SucceedsInTurn schema file settings registrations registration ↔
      Smallest (SuitsUnder schema file settings registrations registration.type)
        registration.name := by
  have names : ((smaller registrations registration).map Registration.name).Nodup :=
    distinct.sublist (List.filter_sublist.map _)
  have mem_smaller : ∀ name, ⟨registration.type, name⟩ ∈ smaller registrations registration ↔
      ⟨registration.type, name⟩ ∈ registrations ∧ name < registration.name := fun name => by
    rw [smaller, List.mem_filter, decide_eq_true_iff]
  have kept : Consistent (turnOf schema file settings registrations registration) :=
    declared_all_consistent schema file consistent _
  have attempted := declare_attempted schema file registration kept
  rcases smallest_or_none schema file consistent names unbound with
    ⟨name, smallest, bound⟩ | ⟨none, still⟩
  · -- The type has been declared under a smaller name, and is not declared again.
    obtain ⟨known, suits⟩ := smallest.own
    obtain ⟨known, before⟩ := (mem_smaller name).mp known
    refine ⟨fun outcome => ?_, fun own => absurd ⟨known, suits⟩ (own.least name before)⟩
    cases attempted with
    | refused other _ _ => cases outcome.symm.trans other
    | known again _ _ =>
        obtain rfl := Option.some.inj (bound.symm.trans again)
        exact absurd before (String.lt_irrefl _)
    | added free _ _ _ => cases bound.symm.trans free
  · have fresh : registration.name ∉
        (inNameOrder (smaller registrations registration)).map Registration.name := by
      intro known
      obtain ⟨other, inside, same⟩ := List.mem_map.mp known
      have before := (List.mem_filter.mp ((name_order_perm _).mem_iff.mp inside)).2
      rw [decide_eq_true_iff, same] at before
      exact String.lt_irrefl _ before
    have same := suits_extended schema file (declared_all_extended schema file consistent _) fresh
    refine (attempted.ok_iff still).trans (same.trans ⟨fun suits => ⟨⟨inside, suits⟩, ?_⟩,
      fun smallest => smallest.own.2⟩)
    rintro name before ⟨known, suits⟩
    exact none name ⟨(mem_smaller name).mpr ⟨known, before⟩, suits⟩

/-- A registration that fails in its turn might as well be left out. -/
theorem failed_registration_left_out (consistent : Consistent settings)
    (distinct : (registrations.map Registration.name).Nodup) (inside : registration ∈ registrations)
    (failed : ¬ SucceedsInTurn schema file settings registrations registration) :
    (declare schema file (turnOf schema file settings registrations registration) registration.type
        registration.name).settings = turnOf schema file settings registrations registration ∧
      (settings.declareAll schema file (registrations.erase registration)).1 =
        (settings.declareAll schema file registrations).1 := by
  have kept : Consistent (turnOf schema file settings registrations registration) :=
    declared_all_consistent schema file consistent _
  have unchanged : (declare schema file (turnOf schema file settings registrations registration)
      registration.type registration.name).settings =
        turnOf schema file settings registrations registration := by
    cases declare_attempted schema file registration kept with
    | refused _ _ unchanged => exact unchanged
    | known _ outcome _ | added _ _ outcome _ => exact absurd outcome failed
  refine ⟨unchanged, ?_⟩
  obtain ⟨later, whole, without⟩ := name_order_split distinct inside
  calc (settings.declareAll schema file (registrations.erase registration)).1
      = declaredAll schema file (turnOf schema file settings registrations registration) later := by
        rw [declareAll, ← declaredAll, without, declared_all_append]
        rfl
    _ = (settings.declareAll schema file registrations).1 := by
        rw [declareAll, ← declaredAll, whole, declared_all_append, declared_all_cons]
        exact congrArg (declaredAll schema file · later) unchanged.symm

end Turns

theorem Smallest.congr {holds others : String → Prop} (same : ∀ name, holds name ↔ others name)
    (name : String) : Smallest holds name ↔ Smallest others name := by
  obtain rfl : holds = others := funext fun name => propext (same name)
  exact Iff.rfl

/-- Registrations of distinct names come to the same in whatever order they were collected. One that
fails leaves the registry as it is then, and might as well be left out; what was declared before stays
where and as it is. A type that was not declared ends up under the smallest of its names for which the
declaration succeeds in its turn, which is the smallest one for which it would succeed by itself. -/
theorem registrations_in_any_order [Json.NumberReader] (schema : Schema) (settings : Settings)
    (reached : Reached schema settings) (file : FileState) (registrations : List Registration)
    (distinct : (registrations.map Registration.name).Nodup) :
    let after := (settings.declareAll schema file registrations).1
    let succeeds := SucceedsInTurn schema file settings registrations
    (∀ others : List Registration, others.Perm registrations →
      settings.declareAll schema file others = settings.declareAll schema file registrations) ∧
    (∀ registration ∈ registrations, ¬ succeeds registration →
      (declare schema file (turnOf schema file settings registrations registration)
          registration.type registration.name).settings =
        turnOf schema file settings registrations registration ∧
      (settings.declareAll schema file (registrations.erase registration)).1 = after) ∧
    (∀ name entry, settings.entries.get? name = some entry →
      after.entries.get? name = some entry ∧ after.boundName? entry.type = some name) ∧
    ∀ type, settings.boundName? type = none →
      (∀ name, after.boundName? type = some name ↔
        Smallest (fun name => ⟨type, name⟩ ∈ registrations ∧ succeeds ⟨type, name⟩) name) ∧
      (∀ name, after.boundName? type = some name ↔
        Smallest (fun name => ⟨type, name⟩ ∈ registrations ∧
          (declare schema file settings type name).outcome = .ok ()) name) ∧
      (after.boundName? type = none ↔
        ∀ name, ⟨type, name⟩ ∈ registrations → ¬ succeeds ⟨type, name⟩) := by
  intro after succeeds
  have consistent := reached.consistent
  have extended := declared_all_extended schema file consistent (inNameOrder registrations)
  refine ⟨fun others same => ?_, fun registration =>
    failed_registration_left_out consistent distinct, fun name entry found => ?_,
    fun type unbound => ?_⟩
  · have names : (others.map Registration.name).Nodup := (same.map _).nodup_iff.mpr distinct
    have order : inNameOrder others = inNameOrder registrations :=
      (name_order_in_turn names).unique (name_order_in_turn distinct)
        ((name_order_perm others).trans (same.trans (name_order_perm registrations).symm))
    rw [declareAll, declareAll, order]
  · exact ⟨extended.entries name entry found,
      extended.bindings _ _ ((consistent.bound_iff entry.type name).mpr ⟨entry, found, rfl⟩)⟩
  · have suited (name : String) : after.boundName? type = some name ↔
        Smallest (SuitsUnder schema file settings registrations type) name :=
      bound_iff_smallest consistent distinct unbound
    have turns (name : String) : ⟨type, name⟩ ∈ registrations ∧ succeeds ⟨type, name⟩ ↔
        after.boundName? type = some name := by
      rw [suited]
      exact ⟨fun ⟨inside, outcome⟩ =>
          (succeeds_in_turn_iff consistent distinct unbound inside).mp outcome,
        fun smallest => ⟨smallest.own.1,
          (succeeds_in_turn_iff consistent distinct unbound smallest.own.1).mpr smallest⟩⟩
    refine ⟨fun name => ?_, fun name => (suited name).trans (Smallest.congr (fun name => ?_) name), ?_⟩
    · refine ⟨fun bound => ⟨(turns name).mpr bound, fun smaller before other => ?_⟩,
        fun smallest => (turns name).mp smallest.own⟩
      obtain rfl := Option.some.inj (bound.symm.trans ((turns smaller).mp other))
      exact String.lt_irrefl _ before
    · exact and_congr_right fun _ =>
        ((declare_attempted schema file ⟨type, name⟩ consistent).ok_iff unbound).symm
    · rw [Option.eq_none_iff_forall_ne_some]
      exact forall_congr' fun name => by rw [ne_eq, ← turns, not_and]

end Settings

namespace Route

open Settings

/-- A count under three names, one of which is that of the home, and the stop that the home is. -/
def registered : List Registration :=
  [⟨count, "most"⟩, ⟨.record "Stop", "away"⟩, ⟨count, "limit"⟩, ⟨count, "home"⟩]

end Route

open Route in
/-- The count ends up under the second of its names, since the first is taken. -/
theorem Settings.registrations_in_any_order_limit :
    let after := (filed.declareAll schema preferredFile registered).1
    Reached schema filed ∧ (registered.map Registration.name).Nodup ∧
      filed.declareAll schema preferredFile registered.reverse =
        filed.declareAll schema preferredFile registered ∧
      (filed.declareAll schema preferredFile (registered.erase ⟨count, "home"⟩)).1 = after ∧
      after.entries.get? "home" = some (.of (.record "Stop") (stop "North" [] .absent 12)) ∧
      after.boundName? (.record "Stop") = some "home" ∧ after.boundName? count = some "limit" := by
  intro after
  have reached : Reached schema filed := ⟨_, _, rfl⟩
  have distinct : (registered.map Registration.name).Nodup := by decide
  obtain ⟨order, failed, kept, types⟩ :=
    registrations_in_any_order schema filed reached preferredFile registered distinct
  obtain ⟨turns, alone, -⟩ := types count rfl
  have table (name : String) : FollowsTable schema preferredFile filed count name .absent false
      (declare schema preferredFile filed count name) := declare_value_table reached.consistent
  have entered := (table "limit").entered rfl rfl
  rw [filed_config, limit_backed] at entered
  have taken := (table "home").taken rfl _ rfl
  have bound : after.boundName? count = some "limit" := by
    refine (alone "limit").mpr ⟨⟨by decide, entered.1⟩, ?_⟩
    rintro name before ⟨inside, outcome⟩
    have names : name = "most" ∨ name = "limit" ∨ name = "home" := by
      simpa [registered, count] using inside
    rcases names with rfl | rfl | rfl
    · exact absurd before (by decide)
    · exact String.lt_irrefl _ before
    · cases outcome.symm.trans taken.1
  have refused := ((turns "limit").mp bound).least "home" (by decide)
  have home := kept "home" _ rfl
  exact ⟨reached, distinct, order _ (List.reverse_perm _),
    (failed ⟨count, "home"⟩ (by decide) fun succeeds => refused ⟨by decide, succeeds⟩).2,
    home.1, home.2, bound⟩

end Marshal
