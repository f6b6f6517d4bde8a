import Mathlib.Logic.Relation
import EasyStressTest.Execution

/-!
Runs whose events come in another order. Where neighbours that are independent can change places, up to
a likeness of states that steps respect, a whole run can be rearranged by such changes.
-/

namespace EasyStressTest.Interleaving
open Execution

section
variable {Event : Type*}

/-- Two neighbours that are independent change places. -/
inductive Swap (Independent : Event → Event → Prop) : List Event → List Event → Prop
  | swap (before : List Event) {first second : Event} (after : List Event) (apart : Independent first second) :
      Swap Independent (before ++ first :: second :: after) (before ++ second :: first :: after)

def Rearranged (Independent : Event → Event → Prop) : List Event → List Event → Prop :=
  Relation.ReflTransGen (Swap Independent)

end

section
variable {State Event : Type*} {step : State → Event → Option State} {Independent : Event → Event → Prop}
  {Alike : State → State → Prop} {Invariant : State → Prop} {state other last : State} {events others : List Event}

/-- Steps respect the likeness, and independent neighbours lead to alike states in both orders. -/
structure Commutes (step : State → Event → Option State) (Independent : Event → Event → Prop)
    (Alike : State → State → Prop) (Invariant : State → Prop) : Prop where
  refl : ∀ state, Alike state state
  trans : ∀ first second third, Alike first second → Alike second third → Alike first third
  preserved : ∀ state event next, Invariant state → step state event = some next → Invariant next
  respects : ∀ state other event next, Invariant state → Invariant other → Alike state other →
    step state event = some next → ∃ answer, step other event = some answer ∧ Alike next answer
  diamond : ∀ state first second middle last, Invariant state → Independent first second →
    step state first = some middle → step middle second = some last →
      ∃ aside final, step state second = some aside ∧ step aside first = some final ∧ Alike last final

theorem Commutes.run_respects (commutes : Commutes step Independent Alike Invariant) (holds : Invariant state)
    (also : Invariant other) (alike : Alike state other) (ran : run step state events = some last) :
    ∃ final, run step other events = some final ∧ Alike last final := by
  induction events generalizing state other with
  | nil =>
    cases ran
    exact ⟨other, rfl, alike⟩
  | cons event rest ih =>
    obtain ⟨next, taken, later⟩ := (run_cons step state last event rest).mp ran
    obtain ⟨answer, answered, still⟩ := commutes.respects state other event next holds also alike taken
    obtain ⟨final, further, ends⟩ := ih (commutes.preserved state event next holds taken)
      (commutes.preserved other event answer also answered) still later
    exact ⟨final, (run_cons step other final event rest).mpr ⟨answer, answered, further⟩, ends⟩

theorem Commutes.run_swap (commutes : Commutes step Independent Alike Invariant) (holds : Invariant state)
    (swap : Swap Independent events others) (ran : run step state events = some last) :
    ∃ final, run step state others = some final ∧ Alike last final := by
  cases swap with
  | @swap before first second after apart =>
    rw [run_append] at ran
    obtain ⟨start, led, here⟩ := Option.bind_eq_some_iff.mp ran
    obtain ⟨middle, taken, more⟩ := (run_cons step start last first _).mp here
    obtain ⟨next, follows, later⟩ := (run_cons step middle last second after).mp more
    have begins := run_preserves commutes.preserved holds led
    obtain ⟨aside, final, earlier, behind, alike⟩ :=
      commutes.diamond start first second middle next begins apart taken follows
    have reached : Invariant next :=
      commutes.preserved _ _ _ (commutes.preserved _ _ _ begins taken) follows
    have also : Invariant final :=
      commutes.preserved _ _ _ (commutes.preserved _ _ _ begins earlier) behind
    obtain ⟨ending, further, same⟩ := commutes.run_respects reached also alike later
    refine ⟨ending, run_concat led ?_, same⟩
    rw [run_cons]
    exact ⟨aside, earlier, (run_cons step aside ending first after).mpr ⟨final, behind, further⟩⟩

/-- A run can be rearranged, and ends in an alike state. -/
theorem Commutes.run_rearranged (commutes : Commutes step Independent Alike Invariant) (holds : Invariant state)
    (rearranged : Rearranged Independent events others) (ran : run step state events = some last) :
    ∃ final, run step state others = some final ∧ Alike last final := by
  induction rearranged with
  | refl => exact ⟨last, ran, commutes.refl last⟩
  | tail _ swap ih =>
    obtain ⟨middle, earlier, alike⟩ := ih
    obtain ⟨final, further, same⟩ := commutes.run_swap holds swap earlier
    exact ⟨final, further, commutes.trans _ _ _ alike same⟩

end

end EasyStressTest.Interleaving
