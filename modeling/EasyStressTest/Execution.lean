import Mathlib.Data.List.Basic

/-!
Finite runs of a partial step function. An event that cannot happen in a state has no
step there, so a run is a list of events each of which was possible when its turn came.
-/

namespace EasyStressTest.Execution

variable {State Event : Type*}

/-- Performs the events in order. -/
def run (step : State → Event → Option State) : State → List Event → Option State
  | state, [] => some state
  | state, event :: rest => (step state event).bind fun next => run step next rest

theorem run_cons (step : State → Event → Option State) (state last : State) (event : Event)
    (rest : List Event) :
    run step state (event :: rest) = some last ↔
      ∃ next, step state event = some next ∧ run step next rest = some last := by
  simp only [run, Option.bind_eq_some_iff]

theorem run_append (step : State → Event → Option State) (state : State) (first second : List Event) :
    run step state (first ++ second) = (run step state first).bind fun next => run step next second := by
  induction first generalizing state with
  | nil => rfl
  | cons event rest ih =>
    simp only [List.cons_append, run, Option.bind_assoc]
    congr 1
    funext next
    exact ih next

/-- The steps for permitted events only. -/
def restrict (step : State → Event → Option State) (permitted : Event → Bool) (state : State)
    (event : Event) : Option State :=
  if permitted event then step state event else none

theorem restrict_eq_some {step : State → Event → Option State} {permitted : Event → Bool}
    {state next : State} {event : Event} :
    restrict step permitted state event = some next ↔
      permitted event = true ∧ step state event = some next := by
  by_cases allowed : permitted event = true <;> simp [restrict, allowed]

theorem run_restrict {step : State → Event → Option State} {permitted : Event → Bool} (state : State)
    {events : List Event} (all : ∀ event ∈ events, permitted event = true) :
    run (restrict step permitted) state events = run step state events := by
  induction events generalizing state with
  | nil => rfl
  | cons event rest ih =>
    have first : restrict step permitted state event = step state event :=
      if_pos (all event List.mem_cons_self)
    simp only [run, first]
    congr 1
    funext next
    exact ih next fun other among => all other (List.mem_cons_of_mem _ among)

theorem run_concat {step : State → Event → Option State} {state next last : State}
    {first second : List Event} (before : run step state first = some next)
    (after : run step next second = some last) : run step state (first ++ second) = some last := by
  rw [run_append, before]
  exact after

/-- A run through a given sequence of states. -/
theorem run_stages {step : State → Event → Option State} {stage : Nat → State} {event : Nat → Event}
    {n : Nat} (turn : ∀ k < n, step (stage k) (event k) = some (stage (k + 1))) :
    run step (stage 0) ((List.range n).map event) = some (stage n) := by
  induction n with
  | zero => rfl
  | succ n ih =>
    have earlier := ih fun k before => turn k (by omega)
    have last : run step (stage n) [event n] = some (stage (n + 1)) := by
      rw [run, turn n (by omega)]
      rfl
    rw [List.range_succ, List.map_append]
    exact run_concat earlier last

/-- Every event of the run is `Allowed` in the state in which it happens. -/
def Along (step : State → Event → Option State) (Allowed : State → Event → Prop) :
    State → List Event → Prop
  | _, [] => True
  | state, event :: rest =>
      Allowed state event ∧ ∀ next, step state event = some next → Along step Allowed next rest

/-- What every allowed step preserves holds at the end of every allowed run. -/
theorem run_preserves_along {step : State → Event → Option State} {Allowed : State → Event → Prop}
    {Invariant : State → Prop}
    (preserved : ∀ state event next, Invariant state → Allowed state event →
      step state event = some next → Invariant next)
    {state last : State} {events : List Event} (initially : Invariant state)
    (allowed : Along step Allowed state events) (ran : run step state events = some last) :
    Invariant last := by
  induction events generalizing state with
  | nil =>
    cases ran
    exact initially
  | cons event rest ih =>
    obtain ⟨next, taken, later⟩ := (run_cons step state last event rest).mp ran
    exact ih (preserved state event next initially allowed.1 taken) (allowed.2 next taken) later

theorem along_trivial (step : State → Event → Option State) (state : State) (events : List Event) :
    Along step (fun _ _ => True) state events := by
  induction events generalizing state with
  | nil => trivial
  | cons event rest ih => exact ⟨trivial, fun next _ => ih next⟩

/-- What every step preserves holds at the end of every run. -/
theorem run_preserves {step : State → Event → Option State} {Invariant : State → Prop}
    (preserved : ∀ state event next, Invariant state → step state event = some next → Invariant next)
    {state last : State} {events : List Event} (initially : Invariant state)
    (ran : run step state events = some last) : Invariant last :=
  run_preserves_along (fun state event next holds _ => preserved state event next holds)
    initially (along_trivial step state events) ran

/-- An invariant of the state and of the events that led to it. -/
theorem run_history {step : State → Event → Option State} {Invariant : List Event → State → Prop}
    (preserved : ∀ past state event next, Invariant past state → step state event = some next →
      Invariant (past ++ [event]) next)
    {state last : State} {past events : List Event} (initially : Invariant past state)
    (ran : run step state events = some last) : Invariant (past ++ events) last := by
  induction events generalizing state past with
  | nil =>
    cases ran
    rw [List.append_nil]
    exact initially
  | cons event rest ih =>
    obtain ⟨next, taken, later⟩ := (run_cons step state last event rest).mp ran
    have whole := ih (preserved past state event next initially taken) later
    rw [List.append_assoc] at whole
    exact whole

/-- An invariant of the allowed steps turns one condition along a run into another. -/
theorem along_of_run {step : State → Event → Option State} {Allowed Goal : State → Event → Prop}
    {Invariant : State → Prop}
    (preserved : ∀ state event next, Invariant state → Allowed state event →
      step state event = some next → Invariant next)
    (implied : ∀ state event next, Invariant state → Allowed state event →
      step state event = some next → Goal state event)
    {state last : State} {events : List Event} (initially : Invariant state)
    (allowed : Along step Allowed state events) (ran : run step state events = some last) :
    Along step Goal state events := by
  induction events generalizing state with
  | nil => trivial
  | cons event rest ih =>
    obtain ⟨next, taken, later⟩ := (run_cons step state last event rest).mp ran
    refine ⟨implied state event next initially allowed.1 taken, fun other same => ?_⟩
    rw [← Option.some.inj (taken.symm.trans same)]
    exact ih (preserved state event next initially allowed.1 taken) (allowed.2 next taken) later

theorem along_and {step : State → Event → Option State} {First Second : State → Event → Prop}
    {state : State} {events : List Event} :
    Along step (fun state event => First state event ∧ Second state event) state events ↔
      Along step First state events ∧ Along step Second state events := by
  induction events generalizing state with
  | nil => simp [Along]
  | cons event rest ih =>
    simp only [Along, ih]
    apply Iff.intro
    · intro both
      exact ⟨⟨both.1.1, fun next taken => (both.2 next taken).1⟩,
        ⟨both.1.2, fun next taken => (both.2 next taken).2⟩⟩
    · intro both
      exact ⟨⟨both.1.1, both.2.1⟩, fun next taken => ⟨both.1.2 next taken, both.2.2 next taken⟩⟩

/-- Two conditions that agree on the allowed events hold along the same runs. -/
theorem along_congr {step : State → Event → Option State} {Allowed First Second : State → Event → Prop}
    {Invariant : State → Prop}
    (preserved : ∀ state event next, Invariant state → Allowed state event → First state event →
      step state event = some next → Invariant next)
    (same : ∀ state event, Invariant state → Allowed state event → (First state event ↔ Second state event))
    {state : State} {events : List Event} (initially : Invariant state)
    (allowed : Along step Allowed state events) : Along step First state events ↔ Along step Second state events := by
  induction events generalizing state with
  | nil => exact Iff.rfl
  | cons event rest ih =>
    have now := same state event initially allowed.1
    have later : First state event → ∀ next, step state event = some next →
        (Along step First next rest ↔ Along step Second next rest) :=
      fun first next taken => ih (preserved state event next initially allowed.1 first taken) (allowed.2 next taken)
    apply Iff.intro
    · intro along
      exact ⟨now.mp along.1, fun next taken => (later along.1 next taken).mp (along.2 next taken)⟩
    · intro along
      have first := now.mpr along.1
      exact ⟨first, fun next taken => (later first next taken).mpr (along.2 next taken)⟩

/-- A program that refuses some steps of another makes the runs of it in which it takes every step. -/
theorem run_both_iff {step narrow : State → Event → Option State}
    (within : ∀ state event next, narrow state event = some next → step state event = some next)
    {state : State} {events : List Event} :
    (∃ last, run narrow state events = some last ∧ run step state events = some last) ↔
      Along step (fun state event => ∃ next, narrow state event = some next) state events := by
  induction events generalizing state with
  | nil => exact iff_of_true ⟨state, rfl, rfl⟩ trivial
  | cons event rest ih =>
    apply Iff.intro
    · intro both
      obtain ⟨last, narrowed, ran⟩ := both
      obtain ⟨next, taken, later⟩ := (run_cons narrow state last event rest).mp narrowed
      have stepped := within state event next taken
      obtain ⟨other, same, follows⟩ := (run_cons step state last event rest).mp ran
      cases stepped.symm.trans same
      refine ⟨⟨next, taken⟩, fun another also => ?_⟩
      cases stepped.symm.trans also
      exact ih.mp ⟨last, later, follows⟩
    · intro along
      obtain ⟨next, taken⟩ := along.1
      have stepped := within state event next taken
      obtain ⟨last, narrowed, ran⟩ := ih.mpr (along.2 next stepped)
      exact ⟨last, (run_cons narrow state last event rest).mpr ⟨next, taken, narrowed⟩,
        (run_cons step state last event rest).mpr ⟨next, stepped, ran⟩⟩

/-- Every state that the run reaches is `Fine`. -/
def ReachesOnly (step : State → Event → Option State) (Fine : State → Prop) : State → List Event → Prop
  | state, [] => Fine state
  | state, event :: rest =>
      Fine state ∧ ∀ next, step state event = some next → ReachesOnly step Fine next rest

/-- Allowed steps lead from fine states to fine states, and a step that is not allowed leads to one
that is not fine. -/
theorem reachesOnly_iff_along {step : State → Event → Option State} {Allowed : State → Event → Prop}
    {Invariant Fine : State → Prop} (fine : ∀ state, Invariant state → Fine state)
    (preserved : ∀ state event next, Invariant state → Allowed state event →
      step state event = some next → Invariant next)
    (exposed : ∀ state event next, Invariant state → ¬Allowed state event →
      step state event = some next → ¬Fine next)
    {state last : State} {events : List Event} (initially : Invariant state)
    (ran : run step state events = some last) :
    ReachesOnly step Fine state events ↔ Along step Allowed state events := by
  induction events generalizing state with
  | nil => exact iff_of_true (fine state initially) trivial
  | cons event rest ih =>
    obtain ⟨next, taken, later⟩ := (run_cons step state last event rest).mp ran
    have only : ∀ other, step state event = some other → other = next :=
      fun other same => Option.some.inj (same.symm.trans taken)
    by_cases allowed : Allowed state event
    · have tail := ih (preserved state event next initially allowed taken) later
      apply Iff.intro
      · intro fine_run
        refine ⟨allowed, fun other same => ?_⟩
        rw [only other same]
        exact tail.mp (fine_run.2 next taken)
      · intro along
        refine ⟨fine state initially, fun other same => ?_⟩
        rw [only other same]
        exact tail.mpr (along.2 next taken)
    · have broken := exposed state event next initially allowed taken
      apply iff_of_false
      · intro fine_run
        have nextly := fine_run.2 next taken
        cases rest with
        | nil => exact broken nextly
        | cons => exact broken nextly.1
      · exact fun along => allowed along.1

/-- Whether a condition holds along a run can be computed. -/
def decideAlong (step : State → Event → Option State) (Allowed : State → Event → Prop)
    [∀ state event, Decidable (Allowed state event)] :
    (state : State) → (events : List Event) → Decidable (Along step Allowed state events)
  | _, [] => isTrue trivial
  | state, event :: rest =>
      match taken : step state event with
      | none => decidable_of_iff (Allowed state event) (by simp [Along, taken])
      | some next =>
          have := decideAlong step Allowed next rest
          decidable_of_iff (Allowed state event ∧ Along step Allowed next rest) (by simp [Along, taken])

instance (step : State → Event → Option State) (Allowed : State → Event → Prop)
    [∀ state event, Decidable (Allowed state event)] (state : State) (events : List Event) :
    Decidable (Along step Allowed state events) := decideAlong step Allowed state events

/-- A run with a step that is not allowed ends badly, when such a step leads to a bad state and
no step leaves the bad states. -/
theorem bad_of_not_along {step : State → Event → Option State} {Allowed : State → Event → Prop}
    {Invariant Bad : State → Prop}
    (preserved : ∀ state event next, Invariant state → step state event = some next → Invariant next)
    (enters : ∀ state event next, Invariant state → ¬Allowed state event →
      step state event = some next → Bad next)
    (stays : ∀ state event next, Invariant state → Bad state → step state event = some next → Bad next)
    {state last : State} {events : List Event} (initially : Invariant state)
    (ran : run step state events = some last) (broken : ¬Along step Allowed state events) : Bad last := by
  induction events generalizing state with
  | nil => exact absurd trivial broken
  | cons event rest ih =>
    obtain ⟨next, taken, later⟩ := (run_cons step state last event rest).mp ran
    have nextly := preserved state event next initially taken
    by_cases allowed : Allowed state event
    · apply ih nextly later
      intro others
      apply broken
      refine ⟨allowed, fun other same => ?_⟩
      rw [← Option.some.inj (taken.symm.trans same)]
      exact others
    · have bad := enters state event next initially allowed taken
      have kept : ∀ state event next, Invariant state ∧ Bad state → step state event = some next →
          Invariant next ∧ Bad next := fun state event next holds taken =>
        ⟨preserved state event next holds.1 taken, stays state event next holds.1 holds.2 taken⟩
      exact (run_preserves kept ⟨nextly, bad⟩ later).2

/-- A flag that exactly these events raise, and nothing lowers, is up after a run when it was up
before or one of them happened. -/
theorem run_flag {step : State → Event → Option State} {Flag Invariant : State → Prop}
    {Raises : Event → Prop}
    (preserved : ∀ state event next, Invariant state → step state event = some next → Invariant next)
    (raised : ∀ state event next, Invariant state → step state event = some next →
      (Flag next ↔ Flag state ∨ Raises event))
    {state last : State} {events : List Event} (initially : Invariant state)
    (ran : run step state events = some last) :
    Flag last ↔ Flag state ∨ ∃ event ∈ events, Raises event := by
  induction events generalizing state with
  | nil =>
    cases ran
    simp
  | cons event rest ih =>
    obtain ⟨next, taken, later⟩ := (run_cons step state last event rest).mp ran
    rw [ih (preserved state event next initially taken) later, raised state event next initially taken]
    simp only [List.exists_mem_cons_iff, or_assoc]

end EasyStressTest.Execution
