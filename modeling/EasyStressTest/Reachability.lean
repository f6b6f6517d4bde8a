import EasyStressTest.Posting
import EasyStressTest.Shutdown
import EasyStressTest.Sweep

/-!
Every step of the program keeps `Good` and advances every life by a `LifeStep`, so what holds of
a life holds of every task in every reachable state.
-/

namespace EasyStressTest.Reachability
open Define HttpTask Options Tasks Libuv Callbacks Loop Execution Lifecycle Simulation Population
open Posting Shutdown Sweep

section
variable {platform : Platform} {config : MainConfig} {info next : MainInfo}

theorem step_eq_some {event : Event} :
    step platform config info event = some next ↔
      enabled info event = true ∧ exec platform config info event = some next := by
  by_cases allowed : enabled info event = true <;> simp [step, allowed]

theorem step_advance {event : Event} (good : Good info)
    (taken : step platform config info event = some next) :
    Advance platform config event info next := by
  obtain ⟨allowed, result⟩ := step_eq_some.mp taken
  cases about : target event with
  | some p => exact target_advance good about allowed result
  | none =>
    cases event with
    | tick hosts =>
      have unwalked : info.walked = false := by simpa [enabled] using allowed
      exact tick_advance good unwalked result
    | release now => exact release_advance good result
    | walk =>
      cases result
      exact walk_advance good
    | _ => cases about

theorem step_good (event : Event) (good : Good info)
    (taken : step platform config info event = some next) : Good next :=
  (step_advance good taken).good

theorem step_nodes {event : Event} (good : Good info)
    (taken : step platform config info event = some next) : info.nodes ≤ next.nodes :=
  (step_advance good taken).grown

/-- The start of `main` does nothing, or what one tick does. -/
theorem begin_eq (hosts : Nat → Option UInt32) :
    begin platform config hosts =
      if config.floodBegin then step platform config MainInfo.initial (.tick hosts)
      else some MainInfo.initial := by
  cases flood : config.floodBegin with
  | false => simp [begin, flood]
  | true =>
    have ticks : step platform config MainInfo.initial (.tick hosts) =
        timerCb config (initCallbacks platform.sizeBits config) MainInfo.initial hosts := rfl
    rw [if_pos rfl, ticks, begin, flood]
    by_cases low : MainInfo.initial.tasks.count < config.taskMinRunning.toNat
    · rw [if_pos rfl, if_pos low]
    · rw [if_pos rfl, if_neg low, timerCb_eq, if_neg low]

theorem begin_spec {hosts : Nat → Option UInt32}
    (begun : begin platform config hosts = some info) :
    Good info ∧ ∀ n < info.nodes, ∃ addr,
      view info n = newborn (builtin config) n (UInt64.ofNat (n + 1)) addr := by
  rw [begin_eq] at begun
  split at begun
  · have advance := step_advance Good.initial begun
    exact ⟨advance.good, fun n before => advance.born n (Nat.zero_le n) before⟩
  · rw [← Option.some.inj begun]
    exact ⟨Good.initial, fun n before => absurd before (Nat.not_lt_zero n)⟩

/-- What holds of every newborn task, and is kept by every step of a life that the condition of
the run allows, holds of every task at the end of the run. -/
theorem run_lives_along {Allowed : MainInfo → Event → Prop} {Fits : Nat → Event → View → Prop}
    {Invariant : Nat → View → Prop}
    (born : ∀ n id addr, Invariant n (newborn (builtin config) n id addr))
    (implied : ∀ info event, Good info → Allowed info event →
      ∀ n < info.nodes, Fits n event (view info n))
    (preserved : ∀ n event before after, Life n before → Invariant n before → Fits n event before →
      LifeStep platform.sizeBits (builtin config) n event before after → Invariant n after)
    {hosts : Nat → Option UInt32} {events : List Event} {first : MainInfo}
    (begun : begin platform config hosts = some first)
    (allowed : Along (step platform config) Allowed first events)
    (ran : run (step platform config) first events = some info) :
    ∀ n < info.nodes, Invariant n (view info n) := by
  obtain ⟨good, fresh⟩ := begin_spec begun
  have start : ∀ n < first.nodes, Invariant n (view first n) := by
    intro n before
    obtain ⟨addr, same⟩ := fresh n before
    rw [same]
    exact born n _ addr
  have kept : ∀ state event next, (Good state ∧ ∀ n < state.nodes, Invariant n (view state n)) →
      Allowed state event → step platform config state event = some next →
      Good next ∧ ∀ n < next.nodes, Invariant n (view next n) := by
    intro state event next holds fits taken
    have advance := step_advance holds.1 taken
    refine ⟨advance.good, fun n before => ?_⟩
    by_cases old : n < state.nodes
    · exact preserved n event _ _ (holds.1.lives n old) (holds.2 n old)
        (implied state event holds.1 fits n old) (advance.lived n old)
    · obtain ⟨addr, same⟩ := advance.born n (Nat.le_of_not_lt old) before
      rw [same]
      exact born n _ addr
  exact (run_preserves_along kept ⟨good, start⟩ allowed ran).2

theorem session_split {hosts : Nat → Option UInt32} {events : List Event} :
    session platform config hosts events = some info ↔
      ∃ first, begin platform config hosts = some first ∧
        run (step platform config) first events = some info := Option.bind_eq_some_iff

/-- What holds of every newborn task and is kept by every step of a life holds of every task. -/
theorem reachable_lives {Invariant : Nat → View → Prop}
    (born : ∀ n id addr, Invariant n (newborn (builtin config) n id addr))
    (preserved : ∀ n event before after, Life n before → Invariant n before →
      LifeStep platform.sizeBits (builtin config) n event before after → Invariant n after)
    (reached : Reachable platform config info) : ∀ n < info.nodes, Invariant n (view info n) := by
  obtain ⟨hosts, events, ran⟩ := reached
  obtain ⟨first, begun, rest⟩ := session_split.mp ran
  have kept : ∀ n event before after, Life n before → Invariant n before → True →
      LifeStep platform.sizeBits (builtin config) n event before after → Invariant n after :=
    fun n event before after life holds _ => preserved n event before after life holds
  exact run_lives_along born (fun _ _ _ _ _ _ => trivial) kept begun (along_trivial _ _ _) rest

/-- What every step preserves and the start of `main` has holds in every reachable state. -/
theorem reachable_induction {Invariant : MainInfo → Prop}
    (begins : ∀ hosts first, begin platform config hosts = some first → Invariant first)
    (preserved : ∀ info event next, Good info → Invariant info →
      step platform config info event = some next → Invariant next)
    (reached : Reachable platform config info) : Good info ∧ Invariant info := by
  have both : ∀ state event next, Good state ∧ Invariant state →
      step platform config state event = some next → Good next ∧ Invariant next :=
    fun state event next holds taken =>
      ⟨step_good event holds.1 taken, preserved state event next holds.1 holds.2 taken⟩
  obtain ⟨hosts, events, ran⟩ := reached
  obtain ⟨first, begun, rest⟩ := session_split.mp ran
  exact run_preserves both ⟨(begin_spec begun).1, begins hosts first begun⟩ rest

theorem reachable_good (reached : Reachable platform config info) : Good info := by
  obtain ⟨hosts, events, ran⟩ := reached
  obtain ⟨first, begun, rest⟩ := session_split.mp ran
  exact run_preserves (fun _ event _ good taken => step_good event good taken) (begin_spec begun).1 rest

end

end EasyStressTest.Reachability
