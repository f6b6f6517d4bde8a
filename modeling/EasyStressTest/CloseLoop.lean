import EasyStressTest.Progress

/-!
What is open after `close_loop` has walked the loop. A worker that is still to run
`work_uv_cb` initialises its handle after the walk.
-/

namespace EasyStressTest.CloseLoop
open Define Options Tasks Libuv Callbacks Loop Execution Lifecycle Simulation Population
open Shutdown Reachability Progress

/-- No handle of a task is initialised and not closing. -/
def NoneOpen (info : MainInfo) : Prop := ∀ n < info.nodes, (info.heap n).conn.state ≠ .opened

/-- No work request waits for its `uv_tcp_init`. -/
def NoneQueued (info : MainInfo) : Prop := ∀ n < info.nodes, (info.heap n).workReq.stage ≠ .queued

section
variable {sizeBits : Nat} {http : Bool} {n : Nat} {event : Event} {before after : View}

/-- A handle is opened by `uv_tcp_init` only, which ends the wait for it. -/
theorem shut_step (shut : before.task.conn.state ≠ .opened)
    (begun : before.task.workReq.stage ≠ .queued)
    (taken : LifeStep sizeBits http n event before after) :
    after.task.conn.state ≠ .opened ∧ after.task.workReq.stage ≠ .queued := by
  cases taken with
  | workInit queued => exact absurd queued begun
  | _ => simp_all

end

section
variable {platform : Platform} {config : MainConfig} {info next : MainInfo}

theorem walk_taken (platform : Platform) (config : MainConfig) (unwalked : info.walked = false) :
    step platform config info .walk = some (closeLoop info) :=
  step_eq_some.mpr ⟨by simp [enabled, unwalked], rfl⟩

theorem walked_shut {n : Nat} (bound : n < info.nodes) :
    ((closeLoop info).heap n).conn.state ≠ .opened ∧
      ((closeLoop info).heap n).workReq = (info.heap n).workReq := by
  have heap : (closeLoop info).heap n = (walkedView (view info n)).task :=
    congrArg View.task (view_closeLoop bound)
  rw [heap, walkedView]
  by_cases opened : (view info n).task.conn.state = .opened
  · rw [if_pos opened]
    exact ⟨by simp, rfl⟩
  · rw [if_neg opened]
    exact ⟨opened, rfl⟩

/-- After the walk no timer runs, so no node is added. -/
theorem walked_step {event : Event} (good : Good info) (walked : info.walked = true)
    (taken : step platform config info event = some next) :
    next.walked = true ∧ next.nodes = info.nodes := by
  obtain ⟨allowed, result⟩ := step_eq_some.mp taken
  cases about : target event with
  | some p =>
    have bound := target_bound about allowed
    have frame := (target_local about (good.lives p bound).routed allowed result).frame
    exact ⟨frame.walked.trans walked, frame.nodes⟩
  | none =>
    cases event with
    | tick hosts => simp [enabled, walked] at allowed
    | release now => simp [enabled, walked] at allowed
    | walk => simp [enabled, walked] at allowed
    | _ => cases about

/-- Closed loops stay closed when no worker was left. -/
structure Shut (info : MainInfo) : Prop where
  good : Good info
  walked : info.walked = true
  closed : NoneOpen info
  begun : NoneQueued info

theorem shut_preserved {event : Event} (shut : Shut info)
    (taken : step platform config info event = some next) : Shut next := by
  obtain ⟨walked, nodes⟩ := walked_step shut.good shut.walked taken
  have advance := step_advance shut.good taken
  have each : ∀ n < next.nodes,
      (next.heap n).conn.state ≠ .opened ∧ (next.heap n).workReq.stage ≠ .queued := by
    intro n before
    rw [nodes] at before
    have closed : (view info n).task.conn.state ≠ .opened := shut.closed n before
    exact shut_step closed (shut.begun n before) (advance.lived n before)
  exact ⟨advance.good, walked, fun n before => (each n before).1, fun n before => (each n before).2⟩

/-- A worker that was left opens its handle after the walk. -/
theorem late_init (platform : Platform) (config : MainConfig) {n : Nat} (good : Good info)
    (unwalked : info.walked = false) (bound : n < info.nodes)
    (queued : (info.heap n).workReq.stage = .queued) :
    ∃ last, run (step platform config) info [.walk, .workInit n] = some last ∧ ¬NoneOpen last := by
  have walks := walk_taken platform config unwalked
  have walkedGood := step_good .walk good walks
  have nodes : (closeLoop info).nodes = info.nodes := (walkFirst_spec info info.nodes).nodes
  have stage : ((closeLoop info).heap n).workReq.stage = .queued := by
    rw [(walked_shut bound).2]
    exact queued
  have within : n < (closeLoop info).nodes := by omega
  obtain ⟨last, taken, _, frame, initialised⟩ := workInit_taken platform config walkedGood within stage
  refine ⟨last, by simp [run, walks, taken], ?_⟩
  intro none
  have opened : (view last n).task.conn.state = .opened := by
    rw [initialised]
    rfl
  exact none n (by rw [frame.nodes]; exact within) opened

/-- After the walk no handle is ever open again, exactly when the walk finds no work request
still waiting for its `uv_tcp_init`. -/
theorem none_open_iff (reached : Reachable platform config info) (unwalked : info.walked = false) :
    (∀ events last, run (step platform config) info (.walk :: events) = some last → NoneOpen last) ↔
      NoneQueued info := by
  have good := reachable_good reached
  have walks := walk_taken platform config unwalked
  apply Iff.intro
  · intro closed n bound queued
    obtain ⟨last, ran, opened⟩ := late_init platform config good unwalked bound queued
    exact opened (closed _ last ran)
  · intro begun events last ran
    obtain ⟨next, taken, later⟩ := (run_cons _ info last .walk events).mp ran
    rw [walks, Option.some.injEq] at taken
    subst next
    have nodes : (closeLoop info).nodes = info.nodes := (walkFirst_spec info info.nodes).nodes
    have shut : Shut (closeLoop info) := by
      refine ⟨step_good .walk good walks, rfl, ?_, ?_⟩
      · intro n before
        rw [nodes] at before
        exact (walked_shut before).1
      · intro n before
        rw [nodes] at before
        rw [(walked_shut before).2]
        exact begun n before
    exact (run_preserves (fun _ _ _ holds taken => shut_preserved holds taken) shut later).closed

end

/-- The walk finds one handle that is being connected and no waiting worker. -/
theorem none_open_iff_connecting :
    ∃ info, session ⟨64, 32⟩ mainConfig (fun _ => none)
        [.tick fun _ => some 0, .workInit 0, .workConnect 0 0, .workReturn 0, .afterWork 0] = some info ∧
      ∀ events last, run (step ⟨64, 32⟩ mainConfig) info (.walk :: events) = some last →
        NoneOpen last := by
  obtain ⟨info, ran, unwalked, begun⟩ : ∃ info, session ⟨64, 32⟩ mainConfig (fun _ => none)
        [.tick fun _ => some 0, .workInit 0, .workConnect 0 0, .workReturn 0, .afterWork 0] = some info ∧
      info.walked = false ∧ NoneQueued info := by
    refine ⟨_, rfl, by decide, ?_⟩
    intro n bound
    revert n
    decide
  exact ⟨info, ran, (none_open_iff ⟨_, _, ran⟩ unwalked).mpr begun⟩

/-- The worker runs after the walk, and its handle stays open. -/
theorem open_after_walk :
    ∃ info, session ⟨64, 32⟩ mainConfig (fun _ => none) [.tick fun _ => some 0, .walk, .workInit 0] =
        some info ∧
      info.walked = true ∧ ¬NoneOpen info := by
  obtain ⟨info, ran, walked, bound, opened⟩ : ∃ info,
      session ⟨64, 32⟩ mainConfig (fun _ => none) [.tick fun _ => some 0, .walk, .workInit 0] =
        some info ∧
      info.walked = true ∧ 0 < info.nodes ∧ (info.heap 0).conn.state = .opened :=
    ⟨_, rfl, by decide, by decide, by decide⟩
  exact ⟨info, ran, walked, fun none => none 0 bound opened⟩

end EasyStressTest.CloseLoop
