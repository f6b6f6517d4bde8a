import Mathlib.Algebra.Order.BigOperators.Group.Finset
import EasyStressTest.CloseLoop
import EasyStressTest.Ranking
import EasyStressTest.Settling

/-!
`uninit`: the walk of `close_loop`, the `uv_run` after it, and `uv_loop_close`. `uv_run` returns when
nothing keeps the loop going, and an open handle with no request does not, so `uv_loop_close` can still
find one.
-/

namespace EasyStressTest.Teardown
open Define HttpTask Options Tasks Libuv Callbacks Loop Execution Lifecycle Simulation Population
open Shutdown Reachability Assertions Progress CloseLoop Ranking Settling

/-- What libuv tells `uninit`: whether `uv_run` still has something to wait for, and what
`uv_loop_close` returns. -/
structure LoopCalls where
  uvLoopAlive : MainInfo → Bool
  uvLoopClose : MainInfo → Int

/-- Nothing of the task is on the loop, neither a request nor a handle, active or not. -/
def offLoop (task : TcpTask) : Bool := !requested task && !onLoop task.conn

/-- By its documentation, `uv_run` waits for requests, active handles and handles to be closed, and
`uv_loop_close` returns 0 when there is neither a request nor a handle, and only then. -/
structure LoopCalls.Documented (uv : LoopCalls) : Prop where
  alive : ∀ info, uv.uvLoopAlive info = true ↔ ∃ n < info.nodes, keepsRunning (info.heap n) = true
  close : ∀ info, uv.uvLoopClose info = 0 ↔ ∀ n < info.nodes, offLoop (info.heap n) = true

/-- libuv's Windows value. -/
def uvEbusy : Int := -4082

/-- libuv as it is documented. -/
def libuv : LoopCalls where
  uvLoopAlive := fun info => (List.range info.nodes).any fun n => keepsRunning (info.heap n)
  uvLoopClose := fun info =>
    if (List.range info.nodes).all fun n => offLoop (info.heap n) then 0 else uvEbusy

theorem libuv_documented : libuv.Documented where
  alive := by simp [libuv]
  close := by simp [libuv, uvEbusy]

def clear (info : MainInfo) : MainInfo := { info with tasks := { info.tasks with taskList := ∅ } }

/-- `uninit`, with the `r` that it asserts to be 0. The events are those of the `uv_run` in
`close_loop`. -/
def uninit (uv : LoopCalls) (platform : Platform) (config : MainConfig) (info : MainInfo)
    (events : List Event) : Option (MainInfo × Int) := do
  let info ← run (step platform config) info (.walk :: events)
  if uv.uvLoopAlive info then none
  else some (clear info, uv.uvLoopClose info)

def loopLeft (info : MainInfo) : Nat := ∑ n ∈ Finset.range info.nodes, eventsLeft (info.heap n)

/-- The loop in the `uv_run` of `close_loop`, as long as no late worker's `uv_tcp_connect` succeeds. -/
structure Leaves (platform : Platform) (config : MainConfig) (info : MainInfo) : Prop where
  reached : Reachable platform config info
  walked : info.walked = true
  leaving : ∀ n < info.nodes, Leaving (info.heap n)

section
variable {uv : LoopCalls} {platform : Platform} {config : MainConfig} {info next last : MainInfo} {event : Event}
  {events : List Event}

theorem loopLeft_le (good : Good info) (begun : NoneQueued info) : loopLeft info ≤ 7 * info.nodes :=
  calc loopLeft info ≤ ∑ _n ∈ Finset.range info.nodes, 7 := by
        apply Finset.sum_le_sum
        intro n member
        have bound := Finset.mem_range.mp member
        exact eventsLeft_le (good.lives n bound).control (begun n bound)
    _ = (Finset.range info.nodes).card * 7 := Finset.sum_const_nat fun _ _ => rfl
    _ = 7 * info.nodes := by rw [Finset.card_range, Nat.mul_comm]

/-- After the walk every event is about one task. -/
theorem target_walked (walked : info.walked = true) (allowed : enabled info event = true) :
    ∃ p, target event = some p := by
  cases event with
  | tick hosts => simp [enabled, walked] at allowed
  | release now => simp [enabled, walked] at allowed
  | walk => simp [enabled, walked] at allowed
  | _ => exact ⟨_, rfl⟩

theorem leaves_lowers : Lowers (step platform config) Refusing (Leaves platform config) loopLeft := by
  intro info event next leaves refusing taken
  have good := reachable_good leaves.reached
  obtain ⟨allowed, result⟩ := step_eq_some.mp taken
  obtain ⟨p, about⟩ := target_walked leaves.walked allowed
  have bound := target_bound about allowed
  have local' := target_local about (good.lives p bound).routed allowed result
  have nodes := local'.frame.nodes
  have same : ∀ n, n ≠ p → next.heap n = info.heap n :=
    fun n other => congrArg View.task (local'.frame.apart n other)
  have leaving : ∀ n < info.nodes, Leaving (view info n).task := leaves.leaving
  have lower : eventsLeft (view next p).task < eventsLeft (view info p).task :=
    eventsLeft_lt (leaving p bound) (good.lives p bound).control about local'.life
  apply And.intro
  · refine ⟨reachable_step leaves.reached taken, local'.frame.walked.trans leaves.walked, fun n before => ?_⟩
    rw [nodes] at before
    exact (leaving n before).step (good.lives n before).control
      (refusing n before) ((step_advance good taken).lived n before)
  · unfold loopLeft
    rw [nodes]
    refine Finset.sum_lt_sum (fun n _ => ?_) ⟨p, Finset.mem_range.mpr bound, lower⟩
    by_cases other : n = p
    · rw [other]
      exact Nat.le_of_lt lower
    · rw [same n other]

theorem ended_still (leaves : Leaves platform config info)
    (ended : Ended (step platform config) Refusing info) :
    ∀ n < info.nodes, keepsRunning (info.heap n) = false := by
  intro n bound
  rw [← Bool.not_eq_true]
  intro running
  have life := (reachable_good leaves.reached).lives n bound
  obtain ⟨event, _, allowed, refusing⟩ := event_enabled life (leaves.leaving n bound) bound running
  have untimed : ∀ hosts, event ≠ .tick hosts := by
    intro hosts same
    rw [same, enabled, leaves.walked] at allowed
    cases allowed
  obtain ⟨next, result⟩ := untimed_returns leaves.reached allowed untimed
  have taken := step_eq_some.mpr ⟨allowed, result⟩
  rw [ended event refusing] at taken
  cases taken

/-- A task of which nothing keeps the loop running, and whose handle is not open, is off the loop. -/
theorem offLoop_of_still {task : TcpTask} (still : keepsRunning task = false)
    (unopened : task.conn.state ≠ .opened) : offLoop task = true := by
  simp only [keepsRunning, Bool.or_eq_false_iff] at still
  rw [offLoop, still.1.1, onLoop]
  cases state : task.conn.state with
  | opened => exact absurd state unopened
  | closing notify => simp [isClosingNow, state] at still
  | _ => rfl

theorem offLoop_unopened {task : TcpTask} (off : offLoop task = true) : task.conn.state ≠ .opened := by
  intro opened
  simp [offLoop, onLoop, opened] at off

theorem uninit_eq_some (documented : uv.Documented) {final : MainInfo} {r : Int} :
    uninit uv platform config info events = some (final, r) ↔
      ∃ last, run (step platform config) info (.walk :: events) = some last ∧
        (∀ n < last.nodes, keepsRunning (last.heap n) = false) ∧ final = clear last ∧ r = uv.uvLoopClose last := by
  unfold uninit
  rw [Option.bind_eq_bind, Option.bind_eq_some_iff]
  apply exists_congr
  intro last
  apply and_congr_right
  intro _
  have alive := documented.alive last
  cases running : uv.uvLoopAlive last with
  | true =>
    obtain ⟨n, bound, runs⟩ := alive.mp running
    simp only [if_pos, reduceCtorEq, false_iff, not_and]
    intro still
    rw [still n bound] at runs
    cases runs
  | false =>
    have still : ∀ n < last.nodes, keepsRunning (last.heap n) = false := by
      intro n bound
      rw [← Bool.not_eq_true]
      intro runs
      rw [alive.mpr ⟨n, bound, runs⟩] at running
      cases running
    simp only [Bool.false_eq_true, if_false, Option.some.injEq, Prod.mk.injEq]
    exact ⟨fun same => ⟨still, same.1.symm, same.2.symm⟩, fun same => ⟨same.2.1.symm, same.2.2.symm⟩⟩

theorem walk_leaves (reached : Reachable platform config info) (unwalked : info.walked = false) :
    Leaves platform config (closeLoop info) := by
  have walks := walk_taken platform config unwalked
  refine ⟨reachable_step reached walks, rfl, fun n before opened => ?_⟩
  have nodes : (closeLoop info).nodes = info.nodes := (walkFirst_spec info info.nodes).nodes
  rw [nodes] at before
  exact absurd opened (walked_shut before).1

theorem walk_shut (reached : Reachable platform config info) (unwalked : info.walked = false)
    (begun : NoneQueued info) : Shut (closeLoop info) := by
  have walks := walk_taken platform config unwalked
  have nodes : (closeLoop info).nodes = info.nodes := (walkFirst_spec info info.nodes).nodes
  refine ⟨step_good .walk (reachable_good reached) walks, rfl, fun n before => ?_, fun n before => ?_⟩
  · rw [nodes] at before
    exact (walked_shut before).1
  · rw [nodes] at before
    rw [(walked_shut before).2]
    exact begun n before

theorem shut_refusing (shut : Shut info) : Refusing info event :=
  fun n bound _ _ opened => absurd opened (shut.closed n bound)

theorem walk_run : run (step platform config) info (.walk :: events) = some last ↔
    info.walked = false ∧ run (step platform config) (closeLoop info) events = some last := by
  rw [run_cons]
  constructor
  · rintro ⟨next, taken, later⟩
    obtain ⟨allowed, result⟩ := step_eq_some.mp taken
    cases result
    exact ⟨by simpa [enabled] using allowed, later⟩
  · rintro ⟨unwalked, later⟩
    exact ⟨closeLoop info, walk_taken platform config unwalked, later⟩

/-- Where the walk finds no work request that waits for its `uv_tcp_init`, `uninit` is over after at most
seven events for each task, in whatever order they come, and `uv_loop_close` returns 0. -/
theorem uninit_completes (documented : uv.Documented) (reached : Reachable platform config info)
    (begun : NoneQueued info) (ran : run (step platform config) info (.walk :: events) = some last) :
    events.length ≤ 7 * info.nodes ∧
      ∃ more final, uninit uv platform config info (events ++ more) = some (final, 0) := by
  obtain ⟨unwalked, later⟩ := walk_run.mp ran
  have shut := walk_shut reached unwalked begun
  have leaves := walk_leaves reached unwalked
  have nodes : (closeLoop info).nodes = info.nodes := (walkFirst_spec info info.nodes).nodes
  have lowers : Lowers (step platform config) (fun _ _ => True)
      (fun info => Leaves platform config info ∧ Shut info) loopLeft := by
    intro info event next both _ taken
    obtain ⟨kept, lower⟩ := leaves_lowers info event next both.1 (shut_refusing both.2) taken
    exact ⟨⟨kept, shut_preserved both.2 taken⟩, lower⟩
  have always := along_trivial (step platform config)
  have few := run_length_le lowers ⟨leaves, shut⟩ (always _ _) later
  have bounded := loopLeft_le shut.good shut.begun
  rw [nodes] at bounded
  refine ⟨by omega, ?_⟩
  have kept : Leaves platform config last ∧ Shut last :=
    run_preserves (fun info event next both taken => (lowers info event next both trivial taken).1)
      ⟨leaves, shut⟩ later
  obtain ⟨more, final, further, both, ended⟩ := exists_end lowers kept
  have still := ended_still both.1 fun event _ => ended event trivial
  refine ⟨more, clear final, (uninit_eq_some documented).mpr ⟨final, ?_, still, rfl, ?_⟩⟩
  · exact walk_run.mpr ⟨unwalked, run_concat later further⟩
  · exact ((documented.close final).mpr fun n bound =>
      offLoop_of_still (still n bound) (both.2.closed n bound)).symm

/-- A request is cancelled, and `uninit` can go on to its end. -/
theorem uninit_completes_connecting :
    ∃ info last, session ⟨64, 32⟩ mainConfig (fun _ => none)
        [.tick fun _ => some 0, .workInit 0, .workConnect 0 0, .workReturn 0] = some info ∧
      run (step ⟨64, 32⟩ mainConfig) info [.walk, .connected 0 uvEcanceled 0 0] = some last ∧
      1 ≤ 7 * info.nodes ∧
        ∃ more final,
          uninit libuv ⟨64, 32⟩ mainConfig info ([.connected 0 uvEcanceled 0 0] ++ more) = some (final, 0) := by
  obtain ⟨info, last, reached, begun, ran⟩ : ∃ info last, session ⟨64, 32⟩ mainConfig (fun _ => none)
        [.tick fun _ => some 0, .workInit 0, .workConnect 0 0, .workReturn 0] = some info ∧ NoneQueued info ∧
      run (step ⟨64, 32⟩ mainConfig) info [.walk, .connected 0 uvEcanceled 0 0] = some last := by
    refine ⟨_, _, rfl, ?_, rfl⟩
    intro n bound
    revert n
    decide
  exact ⟨info, last, reached, ran, uninit_completes libuv_documented ⟨_, _, reached⟩ begun ran⟩

/-- A worker that initialises its handle after the walk, and whose connection is refused, leaves it open. -/
theorem late_open {n : Nat} (documented : uv.Documented) (reached : Reachable platform config info)
    (unwalked : info.walked = false) (bound : n < info.nodes) (queued : (info.heap n).workReq.stage = .queued) :
    ∃ events final r, uninit uv platform config info events = some (final, r) ∧ r ≠ 0 := by
  have leaves := walk_leaves reached unwalked
  have nodes : (closeLoop info).nodes = info.nodes := (walkFirst_spec info info.nodes).nodes
  have within : n < (closeLoop info).nodes := by omega
  have stage : ((closeLoop info).heap n).workReq.stage = .queued := by
    rw [(walked_shut bound).2]
    exact queued
  obtain ⟨next, taken, _, _, initialised⟩ :=
    workInit_taken platform config (reachable_good leaves.reached) within stage
  have opened : (next.heap n).conn.state = .opened := by
    have task := congrArg View.task initialised
    rw [show next.heap n = _ from task]
    rfl
  have lowers : Lowers (step platform config) Refusing
      (fun info => Leaves platform config info ∧ n < info.nodes ∧ (info.heap n).conn.state = .opened)
      loopLeft := by
    intro info event next holds refusing taken
    obtain ⟨leaves, bound, opened⟩ := holds
    have good := reachable_good leaves.reached
    obtain ⟨kept, lower⟩ := leaves_lowers info event next leaves refusing taken
    have staying : event ≠ .walk := by
      intro same
      rw [same] at taken
      have allowed := (step_eq_some.mp taken).1
      simp [enabled, leaves.walked] at allowed
    have advance := step_advance good taken
    refine ⟨⟨kept, Nat.lt_of_lt_of_le bound advance.grown, ?_⟩, lower⟩
    have leaving : Leaving (view info n).task := leaves.leaving n bound
    exact opened_step leaving opened staying
      (good.lives n bound).control (advance.lived n bound)
  have first := leaves_lowers _ _ _ leaves (refusing_of_ne (by simp)) taken
  have after : n < next.nodes :=
    Nat.lt_of_lt_of_le within (step_nodes (reachable_good leaves.reached) taken)
  obtain ⟨more, final, further, ⟨walkedOver, held, still_open⟩, ended⟩ :=
    exists_end lowers ⟨first.1, after, opened⟩
  refine ⟨.workInit n :: more, clear final, uv.uvLoopClose final,
    (uninit_eq_some documented).mpr ⟨final, ?_, ended_still walkedOver ended, rfl, rfl⟩, ?_⟩
  · exact walk_run.mpr ⟨unwalked, (run_cons _ _ _ _ _).mpr ⟨next, taken, further⟩⟩
  · intro closes
    exact offLoop_unopened ((documented.close final).mp closes n held) still_open

/-- `uninit`'s assertion after `uv_loop_close` holds in every completion of `uninit` exactly when the walk
finds no work request that waits for its `uv_tcp_init`. -/
theorem uninit_asserts_iff (documented : uv.Documented) (reached : Reachable platform config info)
    (unwalked : info.walked = false) :
    (∀ events final r, uninit uv platform config info events = some (final, r) → r = 0) ↔ NoneQueued info := by
  constructor
  · intro asserted n bound queued
    obtain ⟨events, final, r, completed, refused⟩ := late_open documented reached unwalked bound queued
    exact refused (asserted events final r completed)
  · intro begun events final r completed
    obtain ⟨last, ran, still, _, result⟩ := (uninit_eq_some documented).mp completed
    have shut : Shut last :=
      run_preserves (fun _ _ _ holds taken => shut_preserved holds taken) (walk_shut reached unwalked begun)
        (walk_run.mp ran).2
    rw [result]
    exact (documented.close last).mpr fun n bound => offLoop_of_still (still n bound) (shut.closed n bound)

end

/-- The walk comes before the worker, and the assertion can fail. -/
theorem uninit_asserts_iff_queued :
    ∃ info, session ⟨64, 32⟩ mainConfig (fun _ => none) [.tick fun _ => some 0] = some info ∧
      ¬∀ events final r, uninit libuv ⟨64, 32⟩ mainConfig info events = some (final, r) → r = 0 := by
  obtain ⟨info, reached, unwalked, bound, queued⟩ : ∃ info,
      session ⟨64, 32⟩ mainConfig (fun _ => none) [.tick fun _ => some 0] = some info ∧
      info.walked = false ∧ 0 < info.nodes ∧ (info.heap 0).workReq.stage = .queued :=
    ⟨_, rfl, by decide, by decide, by decide⟩
  refine ⟨info, reached, fun asserted => ?_⟩
  have begun := (uninit_asserts_iff libuv_documented ⟨_, _, reached⟩ unwalked).mp asserted
  exact begun 0 bound queued

end EasyStressTest.Teardown
