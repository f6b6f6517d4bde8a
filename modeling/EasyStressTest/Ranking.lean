import EasyStressTest.Execution

/-!
Runs that come to an end: a rank that every allowed step lowers bounds the length of the runs, and
with it every run goes on to a state in which no allowed event has a step.
-/

namespace EasyStressTest.Ranking
open Execution

variable {State Event : Type*} {step : State → Event → Option State} {Allowed : State → Event → Prop}
  {Invariant : State → Prop} {rank : State → Nat} {state last : State} {events : List Event}

/-- No allowed event has a step. -/
def Ended (step : State → Event → Option State) (Allowed : State → Event → Prop) (state : State) : Prop :=
  ∀ event, Allowed state event → step state event = none

/-- What one allowed step does to the invariant and the rank. -/
def Lowers (step : State → Event → Option State) (Allowed : State → Event → Prop) (Invariant : State → Prop)
    (rank : State → Nat) : Prop :=
  ∀ state event next, Invariant state → Allowed state event → step state event = some next →
    Invariant next ∧ rank next < rank state

theorem run_length_le (lowers : Lowers step Allowed Invariant rank) (initially : Invariant state)
    (allowed : Along step Allowed state events) (ran : run step state events = some last) :
    events.length + rank last ≤ rank state := by
  induction events generalizing state with
  | nil =>
    cases ran
    exact Nat.le_of_eq (Nat.zero_add _)
  | cons event rest ih =>
    obtain ⟨next, taken, later⟩ := (run_cons step state last event rest).mp ran
    obtain ⟨kept, lower⟩ := lowers state event next initially allowed.1 taken
    have remaining := ih kept (allowed.2 next taken) later
    rw [List.length_cons]
    omega

theorem exists_end (lowers : Lowers step Allowed Invariant rank) (initially : Invariant state) :
    ∃ events last, run step state events = some last ∧ Invariant last ∧ Ended step Allowed last := by
  induction rest : rank state using Nat.strongRecOn generalizing state with
  | ind n ih =>
    by_cases ended : Ended step Allowed state
    · exact ⟨[], state, rfl, initially, ended⟩
    · unfold Ended at ended
      push Not at ended
      obtain ⟨event, allowed, goes_on⟩ := ended
      obtain ⟨next, taken⟩ := Option.ne_none_iff_exists'.mp goes_on
      obtain ⟨kept, lower⟩ := lowers state event next initially allowed taken
      rw [rest] at lower
      obtain ⟨events, last, ran, final⟩ := ih (rank next) lower kept rfl
      exact ⟨event :: events, last, (run_cons step state last event events).mpr ⟨next, taken, ran⟩, final⟩

end EasyStressTest.Ranking
