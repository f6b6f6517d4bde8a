import EasyStressTest.LoadControl
import EasyStressTest.Progress

/-!
How many tasks a session adds altogether. Nothing in the program compares this number with
`task_count`: whatever the configuration, a session that drops its tasks and goes on adding new
ones exceeds it.
-/

namespace EasyStressTest.Budget
open Define Options Tasks Libuv Callbacks Loop Execution Lifecycle Simulation Population
open Posting Sweep Reachability LoadControl Progress

section
variable {platform : Platform} {config : MainConfig} {info next : MainInfo} {p : Nat}

/-- A task that waits for its worker, in a session without closed tasks. -/
structure Queued (info : MainInfo) (p : Nat) : Prop where
  bound : p < info.nodes
  stage : (info.heap p).workReq.stage = .queued
  listed : (view info p).listed = true

/-- The connection of a queued task is refused, and its handle is closed. -/
theorem refuse (platform : Platform) (config : MainConfig) (good : Good info) (queued : Queued info p)
    (none : info.tasks.toDeleteTaskList = []) :
    ∃ events last, run (step platform config) info events = some last ∧ Good last ∧
      Frame p info last ∧ (view last p).marked = 1 ∧ (view last p).task.conn.state = .closed ∧
      (view last p).task.conn.reqsPending = 0 ∧ (view last p).task.conn.activecnt = 0 := by
  have bound := queued.bound
  have control : Control (info.heap p) := (good.lives p bound).control
  have idle := (control.unconnected (Or.inl queued.stage)).1
  have unmarked : (view info p).marked = 0 := by simp [view, marksOf, none]
  obtain ⟨first, firstTaken, firstGood, firstFrame, firstView⟩ :=
    workInit_taken platform config good bound queued.stage
  have firstHeap : first.heap p =
      withStage (withConn (info.heap p) (uvTcpInit (info.heap p).conn)) .initialised :=
    congrArg View.task firstView
  have firstBound : p < first.nodes := firstFrame.nodes.symm ▸ bound
  obtain ⟨second, secondTaken, secondGood, secondFrame, secondView⟩ :=
    workConnect_taken platform config firstGood firstBound (by rw [firstHeap]; rfl)
      (by rw [firstHeap]; rfl) (Int.le_refl 0)
  have secondHeap : second.heap p =
      { submit (first.heap p) .connect 0 with
        workReq := { (first.heap p).workReq with r := 0, stage := .connected } } :=
    congrArg View.task secondView
  have secondBound : p < second.nodes := secondFrame.nodes.symm ▸ firstBound
  have submitted : (second.heap p).connectReq.submitted = [.connect] := by
    simp [secondHeap, firstHeap, submit_accepted, idle]
  obtain ⟨third, thirdTaken, thirdGood, thirdFrame, thirdView⟩ :=
    connectFail_taken platform config 0 secondGood secondBound (by simp [submitted])
      (by simp [secondHeap, firstHeap]) (by decide : uvEconnreset ≠ 0) (Int.le_refl 0)
  have thirdHeap : third.heap p = closeOpen (complete (second.heap p) .connect) false :=
    congrArg View.task thirdView
  have thirdBound : p < third.nodes := thirdFrame.nodes.symm ▸ secondBound
  have drained : (third.heap p).connectReq.submitted = [] := by simp [thirdHeap, submitted]
  have retired : (third.heap p).conn.readPending = false := by
    simp [thirdHeap, secondHeap, firstHeap]
  obtain ⟨last, lastTaken, lastGood, lastFrame, lastView⟩ :=
    closedQuiet_taken platform config 0 thirdGood thirdBound (by rw [thirdHeap]; rfl) retired drained
  have counted : Counted (third.heap p) := (thirdGood.lives p thirdBound).counted
  have ran : run (step platform config) info
      [.workInit p, .workConnect p 0, .connected p uvEconnreset 0 0, .closed p 0] = some last := by
    simp [run, firstTaken, secondTaken, thirdTaken, lastTaken]
  refine ⟨_, last, ran, lastGood, ?_, ?_, ?_, ?_, ?_⟩
  · exact ((firstFrame.trans secondFrame).trans thirdFrame).trans lastFrame
  · rw [lastView, thirdView, secondView, firstView]
    simp [unmarked]
  · rw [lastView]
    rfl
  · have pending := counted.reqsPending
    rw [drained, retired] at pending
    rw [lastView]
    exact pending
  · have active := counted.activecnt
    rw [drained, retired] at active
    rw [lastView]
    exact active

/-- A session before its shutdown in which no closed task waits for a sweep. -/
structure Clear (info : MainInfo) : Prop where
  good : Good info
  unwalked : info.walked = false
  none : info.tasks.toDeleteTaskList = []

/-- The tasks have been refused, closed and erased, and the others are as they were. -/
structure Drained (tasks : List Nat) (info last : MainInfo) : Prop where
  clear : Clear last
  nodes : last.nodes = info.nodes
  count : last.tasks.count + tasks.length = info.tasks.count
  others : ∀ m, m ∉ tasks → view last m = view info m

theorem drain_one (platform : Platform) (config : MainConfig) (clear : Clear info)
    (queued : Queued info p) :
    ∃ events last, run (step platform config) info events = some last ∧ Drained [p] info last := by
  obtain ⟨events, middle, ran, good, frame, marked, state, pending, active⟩ :=
    refuse platform config clear.good queued clear.none
  have own : ∀ node ∈ middle.tasks.toDeleteTaskList, node.ptask = p := by
    intro node member
    rcases frame.entries node member with old | fresh
    · rw [clear.none] at old
      cases old
    · exact fresh
  have single : middle.tasks.toDeleteTaskList.length = 1 := by
    have all : marksOf middle.tasks.toDeleteTaskList p = middle.tasks.toDeleteTaskList.length := by
      apply List.countP_eq_length.mpr
      exact fun node member => decide_eq_true (own node member)
    rw [← all]
    exact marked
  obtain ⟨node, entry⟩ := List.length_eq_one_iff.mp single
  have points : node.ptask = p := own node (by rw [entry]; exact List.mem_cons_self)
  have ready : releasable (middle.heap node.ptask) node.timeDeleted (node.timeDeleted + 2) = true := by
    have closed : (middle.heap p).conn.state = .closed := state
    have noRequest : (middle.heap p).conn.reqsPending = 0 := pending
    have inactive : (middle.heap p).conn.activecnt = 0 := active
    rw [points]
    simp [releasable, timeoutForRelease, maxTaskCount, uvIsClosing, closed, noRequest, inactive]
  have taken : leading middle (node.timeDeleted + 2) checkDeleteCount = [node] := by
    simp only [leading, entry]
    have few : [node].length ≤ checkDeleteCount := by
      change 1 ≤ checkDeleteCount
      decide
    rw [List.take_of_length_le few]
    simp [ready]
  obtain ⟨last, returns, result⟩ := sweep_spec (t := node.timeDeleted + 2) good
  rw [taken] at result
  have unwalked : middle.walked = false := frame.walked.trans clear.unwalked
  have sweeps : step platform config middle (.release (node.timeDeleted + 2)) = some last :=
    step_eq_some.mpr ⟨by simp [enabled, unwalked], returns⟩
  have rest := result.entries
  rw [entry] at rest
  have counted := result.count
  have sameCount : middle.tasks.count = info.tasks.count := by
    rw [CTasks.count, frame.taskList]
    rfl
  refine ⟨events ++ [.release (node.timeDeleted + 2)], last, ?_, ?_⟩
  · exact run_concat ran (by simp [run, sweeps])
  · exact
      { clear := ⟨result.good, result.walked.trans unwalked, (List.cons.inj rest).2.symm⟩
        nodes := result.nodes.trans frame.nodes
        count := by rw [← sameCount, ← counted]; rfl
        others := by
          intro m other
          have apart : m ≠ p := by simpa using other
          have unmoved : m ∉ [node].map DeleteNode.ptask := by simpa [points] using apart
          rw [result.views, if_neg unmoved]
          exact frame.apart m apart }

theorem drain (platform : Platform) (config : MainConfig) (tasks : List Nat) (distinct : tasks.Nodup)
    (clear : Clear info) (queued : ∀ p ∈ tasks, Queued info p) :
    ∃ events last, run (step platform config) info events = some last ∧ Drained tasks info last := by
  induction tasks generalizing info with
  | nil => exact ⟨[], info, rfl, clear, rfl, rfl, fun _ _ => rfl⟩
  | cons p rest ih =>
    obtain ⟨absent, distinct⟩ := List.nodup_cons.mp distinct
    obtain ⟨events, middle, ran, first⟩ :=
      drain_one platform config clear (queued p List.mem_cons_self)
    have later : ∀ m ∈ rest, Queued middle m := by
      intro m member
      have before := queued m (List.mem_cons_of_mem p member)
      have apart : m ∉ [p] := by
        intro same
        rw [List.mem_singleton.mp same] at member
        exact absent member
      have same := first.others m apart
      have heap : middle.heap m = info.heap m := congrArg View.task same
      exact ⟨by rw [first.nodes]; exact before.bound, by rw [heap]; exact before.stage,
        by rw [same]; exact before.listed⟩
    obtain ⟨more, last, ranRest, others⟩ := ih distinct first.clear later
    have firstCount := first.count
    have restCount := others.count
    refine ⟨events ++ more, last, run_concat ran ranRest, others.clear,
      others.nodes.trans first.nodes, ?_, ?_⟩
    · simp only [List.length_cons, List.length_nil] at firstCount ⊢
      omega
    · intro m absent
      rw [others.others m (fun member => absent (List.mem_cons_of_mem p member))]
      exact first.others m (by
        intro same
        rw [List.mem_singleton.mp same] at absent
        exact absent List.mem_cons_self)

/-! One round: a tick with every `on_init` succeeding, and the end of all its tasks. -/

structure Empty (info : MainInfo) : Prop extends Clear info where
  count : info.tasks.count = 0

theorem onInit_succeeds (address : UInt32) :
    0 ≤ onInitReturned (initCallbacks platform.sizeBits config) (some address) := by
  cases table : builtin config with
  | true => simp [initCallbacks_http _ table, onInitReturned, httpCallbacks, httpOnInit]
  | false => simp [initCallbacks_script _ table, onInitReturned, noCallbacks]

/-- A tick that finds no task adds `task_add_once` queued ones. -/
theorem fill (platform : Platform) (empty : Empty info) (low : 1 ≤ config.taskMinRunning.toNat)
    (few : info.nodes + config.taskAddOnce.toNat < 2 ^ 64) :
    ∃ next, step platform config info (.tick fun _ => some 0) = some next ∧
      Posted (builtin config) config.taskAddOnce.toNat info next := by
  obtain ⟨next, posts⟩ := postFirst_returns platform config (fun _ => some 0) empty.good
    empty.unwalked few
  have posted := postFirst_posted empty.good empty.unwalked posts
  rw [successes_all (fun _ _ => onInit_succeeds 0)] at posted
  refine ⟨next, step_eq_some.mpr ⟨by simp [enabled, empty.unwalked], ?_⟩, posted⟩
  rw [exec, timerCb_eq, if_pos (by rw [empty.count]; omega)]
  exact posts

theorem empty_again (platform : Platform) {count : Nat} (empty : Empty info)
    (posted : Posted (builtin config) count info next) :
    ∃ events last, run (step platform config) next events = some last ∧ Empty last ∧
      last.nodes = info.nodes + count := by
  have nodes := posted.nodes
  have counted := posted.count
  rw [empty.count] at counted
  have clear : Clear next :=
    ⟨posted.good, posted.walked.trans empty.unwalked, posted.entries.trans empty.none⟩
  have queued : ∀ p ∈ (List.range count).map (info.nodes + ·), Queued next p := by
    intro p member
    obtain ⟨i, before, same⟩ := List.mem_map.mp member
    have small := List.mem_range.mp before
    obtain ⟨addr, born⟩ := posted.born p (by omega) (by omega)
    have heap : next.heap p = Lifecycle.posted p (UInt64.ofNat (p + 1)) addr := congrArg View.task born
    exact ⟨by omega, by rw [heap]; rfl, by rw [born]; rfl⟩
  have distinct : ((List.range count).map (info.nodes + ·)).Nodup :=
    List.nodup_range.map (fun _ _ same => Nat.add_left_cancel same)
  obtain ⟨events, last, ran, drained⟩ :=
    drain platform config _ distinct clear queued
  have fewer := drained.count
  rw [List.length_map, List.length_range] at fewer
  exact ⟨events, last, ran, ⟨drained.clear, by omega⟩, drained.nodes.trans nodes⟩

/-- From an empty session any number of tasks can be added. -/
theorem exceed (platform : Platform) (empty : Empty info) (low : 1 ≤ config.taskMinRunning.toNat)
    (once : 1 ≤ config.taskAddOnce.toNat) (goal : Nat)
    (few : goal + config.taskAddOnce.toNat ≤ 2 ^ 64) :
    ∃ events last, run (step platform config) info events = some last ∧ Empty last ∧
      goal ≤ last.nodes := by
  induction goal with
  | zero => exact ⟨[], info, rfl, empty, Nat.zero_le _⟩
  | succ goal ih =>
    obtain ⟨events, middle, ran, still, reached⟩ := ih (by omega)
    by_cases enough : goal + 1 ≤ middle.nodes
    · exact ⟨events, middle, ran, still, enough⟩
    · obtain ⟨next, ticks, posted⟩ := fill platform still low (by omega)
      obtain ⟨more, last, drains, again, nodes⟩ := empty_again platform still posted
      refine ⟨events ++ (.tick (fun _ => some 0) :: more), last, run_concat ran ?_, again, by omega⟩
      exact (run_cons _ _ _ _ _).mpr ⟨next, ticks, drains⟩

theorem empty_initial : Empty MainInfo.initial := ⟨⟨Good.initial, rfl, rfl⟩, rfl⟩

/-- Whatever the configuration, some session adds more tasks than `task_count`. -/
theorem exceeds_task_count (low : 1 ≤ config.taskMinRunning.toNat)
    (once : 1 ≤ config.taskAddOnce.toNat) :
    ∃ hosts events info, session platform config hosts events = some info ∧
      config.taskCount.toNat < info.nodes := by
  have budget := config.taskCount.toNat_lt
  have batch := config.taskAddOnce.toNat_lt
  have start : ∃ first events middle, begin platform config (fun _ => some 0) = some first ∧
      run (step platform config) first events = some middle ∧ Empty middle := by
    rw [begin_eq]
    by_cases flood : config.floodBegin = true
    · obtain ⟨next, ticks, posted⟩ := fill platform empty_initial low
        (by simp only [MainInfo.initial]; omega)
      obtain ⟨more, last, drains, again, _⟩ := empty_again platform empty_initial posted
      exact ⟨next, more, last, by rw [if_pos flood]; exact ticks, drains, again⟩
    · exact ⟨_, [], _, if_neg flood, rfl, empty_initial⟩
  obtain ⟨first, events, middle, begun, ran, empty⟩ := start
  obtain ⟨more, last, exceeds, _, many⟩ := exceed platform empty low once
    (config.taskCount.toNat + 1) (by omega)
  exact ⟨_, events ++ more, last, session_split.mpr ⟨first, begun, run_concat ran exceeds⟩, many⟩

/-! The number of tasks ever added, step by step. -/

/-- A tick that finds less than `task_min_running` tasks in `task_list` has no more attempts with
a successful `on_init` than `task_count` has left. -/
def WithinBudget (platform : Platform) (config : MainConfig) (info : MainInfo) : Event → Prop
  | .tick hosts =>
      info.tasks.count < config.taskMinRunning.toNat →
        info.nodes + successes (initCallbacks platform.sizeBits config) hosts
          config.taskAddOnce.toNat ≤ config.taskCount.toNat
  | _ => True

instance (platform : Platform) (config : MainConfig) (info : MainInfo) :
    (event : Event) → Decidable (WithinBudget platform config info event)
  | .tick _ => inferInstanceAs (Decidable (_ → _ ≤ _))
  | .release _ => isTrue trivial
  | .workInit _ => isTrue trivial
  | .workConnect _ _ => isTrue trivial
  | .workReturn _ => isTrue trivial
  | .afterWork _ => isTrue trivial
  | .connected _ _ _ _ => isTrue trivial
  | .readNone _ => isTrue trivial
  | .readError _ _ => isTrue trivial
  | .readData _ _ => isTrue trivial
  | .written _ _ => isTrue trivial
  | .readRetired _ => isTrue trivial
  | .closed _ _ => isTrue trivial
  | .walk => isTrue trivial

/-- A step keeps the number of tasks within `task_count` exactly when it meets the condition. -/
theorem step_within_iff {event : Event} (good : Good info)
    (taken : step platform config info event = some next)
    (start : info.nodes ≤ config.taskCount.toNat) :
    next.nodes ≤ config.taskCount.toNat ↔ WithinBudget platform config info event := by
  have grown := (step_counts good taken).1
  cases event with
  | tick hosts =>
    rw [WithinBudget, grown, adds, tickAdds]
    by_cases low : info.tasks.count < config.taskMinRunning.toNat
    · rw [if_pos low]
      exact ⟨fun within _ => within, fun within => within low⟩
    · rw [if_neg low]
      exact ⟨fun _ impossible => absurd impossible low, fun _ => start⟩
  | _ =>
    rw [grown]
    exact iff_of_true start trivial

theorem begin_within_iff {hosts : Nat → Option UInt32}
    (begun : begin platform config hosts = some info) :
    info.nodes ≤ config.taskCount.toNat ↔
      (config.floodBegin = true → WithinBudget platform config MainInfo.initial (.tick hosts)) := by
  rw [begin_eq] at begun
  by_cases flood : config.floodBegin = true
  · rw [if_pos flood] at begun
    rw [step_within_iff Good.initial begun (Nat.zero_le _)]
    exact ⟨fun within _ => within, fun within => within flood⟩
  · rw [if_neg flood] at begun
    rw [← Option.some.inj begun]
    exact iff_of_true (Nat.zero_le _) (fun raised => absurd raised flood)

theorem run_grows {events : List Event} {first : MainInfo} (good : Good first)
    (ran : run (step platform config) first events = some info) : first.nodes ≤ info.nodes := by
  have kept : ∀ state event next, (Good state ∧ first.nodes ≤ state.nodes) →
      step platform config state event = some next → Good next ∧ first.nodes ≤ next.nodes := by
    intro state event next holds taken
    exact ⟨step_good event holds.1 taken, holds.2.trans (step_nodes holds.1 taken)⟩
  exact (run_preserves kept ⟨good, Nat.le_refl _⟩ ran).2

/-- What is within `task_count` at the end of a run was so before each of its steps. -/
theorem within_of_final {events : List Event} {first : MainInfo} (good : Good first)
    (ran : run (step platform config) first events = some info)
    (final : info.nodes ≤ config.taskCount.toNat) :
    Along (step platform config) (WithinBudget platform config) first events := by
  induction events generalizing first with
  | nil => trivial
  | cons event rest ih =>
    obtain ⟨next, taken, later⟩ := (run_cons _ first info event rest).mp ran
    have nextGood := step_good event good taken
    have bounded : next.nodes ≤ config.taskCount.toNat := by
      calc
        _ ≤ info.nodes := run_grows nextGood later
        _ ≤ config.taskCount.toNat := final
    have start : first.nodes ≤ config.taskCount.toNat := by
      calc
        _ ≤ next.nodes := step_nodes good taken
        _ ≤ config.taskCount.toNat := bounded
    refine ⟨(step_within_iff good taken start).mp bounded, fun other same => ?_⟩
    rw [← Option.some.inj (taken.symm.trans same)]
    exact ih nextGood later

theorem final_of_within {events : List Event} {first : MainInfo} (good : Good first)
    (start : first.nodes ≤ config.taskCount.toNat)
    (within : Along (step platform config) (WithinBudget platform config) first events)
    (ran : run (step platform config) first events = some info) :
    info.nodes ≤ config.taskCount.toNat := by
  have kept : ∀ state event next, (Good state ∧ state.nodes ≤ config.taskCount.toNat) →
      WithinBudget platform config state event → step platform config state event = some next →
      Good next ∧ next.nodes ≤ config.taskCount.toNat := by
    intro state event next holds allowed taken
    exact ⟨step_good event holds.1 taken, (step_within_iff holds.1 taken holds.2).mpr allowed⟩
  exact (run_preserves_along kept ⟨good, start⟩ within ran).2

end

end EasyStressTest.Budget
