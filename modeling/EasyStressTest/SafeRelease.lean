import EasyStressTest.Reachability

/-!
Whether a task is erased only when nothing refers to it any more. The sweep tests the handle and
its two counters; it does not look at the work request.
-/

namespace EasyStressTest.SafeRelease
open Define HttpTask Options Tasks Libuv Callbacks Loop Execution Lifecycle Population Reachability
open Sweep

def Listed (info : MainInfo) (n : Nat) : Prop := info.tasks.find (info.heap n).id = some n

/-- The handle is closed, and neither `connect_req` nor `work_req` is outstanding. -/
def Finished (task : TcpTask) : Prop :=
  task.conn.state = .closed ∧ task.connectReq.submitted = [] ∧ task.workReq.stage = .delivered

/-- A task that the step erases is finished, and an event about a task finds it in `task_list`. -/
def SafeStep (platform : Platform) (config : MainConfig) (info : MainInfo) (event : Event) : Prop :=
  ∀ next ∈ step platform config info event, ∀ n < info.nodes,
    (Listed info n → ¬Listed next n → Finished (info.heap n)) ∧
      (target event = some n → Listed info n)

def releaseTime : Event → Option Int
  | .release now => some now
  | _ => none

/-- libuv has closed the handles without pending requests before the sweep runs. -/
def Timely (info : MainInfo) (event : Event) : Prop :=
  ∀ _now ∈ releaseTime event, ∀ n < info.nodes,
    isClosingNow (info.heap n).conn = true → (info.heap n).conn.reqsPending ≠ 0

/-- The sweep does not reach a task before its `after_work_cb`. -/
def WorkDelivered (info : MainInfo) (event : Event) : Prop :=
  ∀ now ∈ releaseTime event, ∀ node ∈ leading info now checkDeleteCount,
    (info.heap node.ptask).workReq.stage = .delivered

instance (info : MainInfo) (n : Nat) : Decidable (Listed info n) :=
  inferInstanceAs (Decidable (_ = _))

instance (task : TcpTask) : Decidable (Finished task) := inferInstanceAs (Decidable (_ ∧ _ ∧ _))

instance (platform : Platform) (config : MainConfig) (info : MainInfo) (event : Event) :
    Decidable (SafeStep platform config info event) :=
  inferInstanceAs (Decidable (∀ _ ∈ _, ∀ _ < _, (_ → ¬_ → _) ∧ (_ → _)))

instance (info : MainInfo) (event : Event) : Decidable (Timely info event) :=
  inferInstanceAs (Decidable (∀ _ ∈ _, ∀ _ < _, _ → _))

instance (info : MainInfo) (event : Event) : Decidable (WorkDelivered info event) :=
  inferInstanceAs (Decidable (∀ _ ∈ _, ∀ _ ∈ _, _))

section
variable {sizeBits : Nat} {builtin : Bool} {n : Nat} {event : Event} {before after : View}

/-- No event is about a finished task. -/
theorem finished_untouched (finished : Finished before.task)
    (taken : LifeStep sizeBits builtin n event before after) : target event ≠ some n := by
  obtain ⟨state, drained, stage⟩ := finished
  have unread : isReading before.task.conn = false := by simp [isReading, state]
  have unclosing : isClosingNow before.task.conn = false := by simp [isClosingNow, state]
  cases taken <;> simp_all [target]

theorem finished_step (finished : Finished before.task)
    (taken : LifeStep sizeBits builtin n event before after) : Finished after.task := by
  have apart := finished_untouched finished taken
  cases taken with
  | other => exact finished
  | erase => exact finished
  | walkOpen opened => exact absurd (opened.symm.trans finished.1) (by simp)
  | walkOther => exact finished
  | _ => exact absurd rfl apart

/-- A releasable task has a closed handle without requests, when libuv closes in time. -/
theorem finished_of_releasable {task : TcpTask} {timeDeleted now : Int} (counted : Counted task)
    (ready : releasable task timeDeleted now = true)
    (timely : isClosingNow task.conn = true → task.conn.reqsPending ≠ 0)
    (stage : task.workReq.stage = .delivered) : Finished task := by
  simp only [releasable, Bool.and_eq_true, beq_iff_eq] at ready
  obtain ⟨⟨⟨_, closing⟩, idle⟩, _⟩ := ready
  have requests := counted.reqsPending
  have drained : task.connectReq.submitted = [] := by
    apply List.eq_nil_of_length_eq_zero
    omega
  rcases (uvIsClosing_eq_true _).mp closing with ⟨notify, state⟩ | state
  · exact absurd idle (timely ((isClosingNow_iff _).mpr ⟨notify, state⟩))
  · exact ⟨state, drained, stage⟩

end

section
variable {platform : Platform} {config : MainConfig} {hosts : Nat → Option UInt32}
  {events : List Event} {event : Event} {first info next : MainInfo}

theorem listed_view (n : Nat) : Listed info n ↔ (view info n).listed = true :=
  (listed_iff n).symm

/-- The tasks that a sweep takes are listed before it and not after it. -/
theorem leading_erased {now : Int} (good : Good info)
    (taken : exec platform config info (.release now) = some next) {node : DeleteNode}
    (member : node ∈ leading info now checkDeleteCount) :
    Listed info node.ptask ∧ ¬Listed next node.ptask := by
  have swept := sweep_swept good taken
  have before := (good_entry good (mem_leading member).1).2
  refine ⟨(listed_view _).mpr before, ?_⟩
  rw [listed_view, swept.views, if_pos (List.mem_map_of_mem member)]
  simp [erasedView]

/-- Every task that a step erases is taken by a sweep. -/
theorem erased_leading {n : Nat} (good : Good info) (bound : n < info.nodes)
    (taken : step platform config info event = some next) (listed : Listed info n)
    (gone : ¬Listed next n) : ∃ now, event = .release now ∧
      ∃ node ∈ leading info now checkDeleteCount, node.ptask = n := by
  have lived := (step_advance good taken).lived n bound
  rw [listed_view] at listed gone
  generalize was : view info n = before at lived listed
  generalize is : view next n = after at lived gone
  cases lived with
  | @erase now _ timeDeleted marked _ ready =>
    refine ⟨now, rfl, ?_⟩
    by_contra absent
    have swept := sweep_swept good (step_eq_some.mp taken).2
    have kept := swept.views n
    have out : n ∉ (leading info now checkDeleteCount).map DeleteNode.ptask := by
      intro among
      obtain ⟨node, member, same⟩ := List.mem_map.mp among
      exact absent ⟨node, member, same⟩
    rw [if_neg out, was, is] at kept
    rw [kept] at gone
    exact gone listed
  | _ => exact absurd listed gone

/-- Every task is listed or finished: what the steps keep when work is delivered in time. -/
def Settled (info : MainInfo) : Prop := ∀ n < info.nodes, Listed info n ∨ Finished (info.heap n)

theorem erased_finished {n : Nat} (good : Good info) (bound : n < info.nodes)
    (timely : Timely info event) (delivered : WorkDelivered info event)
    (taken : step platform config info event = some next) (listed : Listed info n)
    (gone : ¬Listed next n) : Finished (info.heap n) := by
  obtain ⟨now, release, node, member, same⟩ := erased_leading good bound taken listed gone
  have time : now ∈ releaseTime event := by
    rw [release]
    rfl
  have stage := delivered now time node member
  have ready := (mem_leading member).2
  rw [same] at stage ready
  exact finished_of_releasable (good.lives n bound).counted ready (timely now time n bound) stage

theorem settled_step (good : Good info) (settled : Settled info) (timely : Timely info event)
    (delivered : WorkDelivered info event) (taken : step platform config info event = some next) :
    Settled next := by
  intro n before
  have advance := step_advance good taken
  by_cases old : n < info.nodes
  · have lived := advance.lived n old
    by_cases still : Listed next n
    · exact Or.inl still
    · right
      have done : Finished (view info n).task := by
        rcases settled n old with listed | finished
        · exact erased_finished good old timely delivered taken listed still
        · exact finished
      exact finished_step done lived
  · left
    obtain ⟨addr, same⟩ := advance.born n (Nat.le_of_not_lt old) before
    rw [listed_view, same]
    rfl

theorem safe_of_delivered (good : Good info) (settled : Settled info) (timely : Timely info event)
    (delivered : WorkDelivered info event) (taken : step platform config info event = some next) :
    SafeStep platform config info event := by
  intro other same n bound
  rw [← Option.some.inj (taken.symm.trans same)]
  refine ⟨fun listed gone => erased_finished good bound timely delivered taken listed gone, ?_⟩
  intro about
  rcases settled n bound with listed | finished
  · exact listed
  · have done : Finished (view info n).task := finished
    exact absurd about (finished_untouched done ((step_advance good taken).lived n bound))

theorem delivered_of_safe (good : Good info) (safe : SafeStep platform config info event)
    (taken : step platform config info event = some next) : WorkDelivered info event := by
  intro now time node member
  have release : event = .release now := by
    cases event with
    | release other => rw [Option.some.inj time]
    | _ => cases time
  subst release
  have erased := leading_erased good (step_eq_some.mp taken).2 member
  have bound := good.entries node (mem_leading member).1
  exact ((safe next taken node.ptask bound).1 erased.1 erased.2).2.2

/-- A run erases only finished tasks, and has no event about an erased one, exactly when no sweep
takes a task whose `after_work_cb` is still to come. -/
theorem safe_release_iff (begun : begin platform config hosts = some first)
    (ran : run (step platform config) first events = some info)
    (timely : Along (step platform config) Timely first events) :
    Along (step platform config) (SafeStep platform config) first events ↔
      Along (step platform config) WorkDelivered first events := by
  obtain ⟨good, fresh⟩ := begin_spec begun
  apply Iff.intro
  · intro safe
    have kept : ∀ state event next, Good state → SafeStep platform config state event →
        step platform config state event = some next → Good next :=
      fun _ event _ good _ taken => step_good event good taken
    exact along_of_run kept (fun _ _ _ good safe taken => delivered_of_safe good safe taken) good safe ran
  · intro delivered
    have start : Settled first := by
      intro n before
      left
      obtain ⟨addr, same⟩ := fresh n before
      rw [listed_view, same]
      rfl
    have both := along_and.mpr ⟨timely, delivered⟩
    have kept : ∀ state event next, (Good state ∧ Settled state) →
        (Timely state event ∧ WorkDelivered state event) →
        step platform config state event = some next → Good next ∧ Settled next := by
      intro state event next holds allowed taken
      exact ⟨step_good event holds.1 taken, settled_step holds.1 holds.2 allowed.1 allowed.2 taken⟩
    apply along_of_run kept _ ⟨good, start⟩ both ran
    intro state event next holds allowed taken
    exact safe_of_delivered holds.1 holds.2 allowed.1 allowed.2 taken

end

/-- A whole reply in one chunk, up to the close of its connection. -/
def repliedRun : List Event :=
  [.tick fun _ => some 0, .workInit 0, .workConnect 0 0, .connected 0 0 0 0, .written 0 0,
    .readData 0 (bytes "</html>\r\n\r\n"), .readRetired 0, .closed 0 0]

theorem safe_release_iff_delivered :
    ∃ first, begin ⟨64, 32⟩ mainConfig (fun _ => none) = some first ∧
      Along (step ⟨64, 32⟩ mainConfig) (SafeStep ⟨64, 32⟩ mainConfig) first
        (repliedRun ++ [.workReturn 0, .afterWork 0, .release 0]) := by
  obtain ⟨first, begun, ⟨info, ran⟩, timely, delivered⟩ : ∃ first,
      begin ⟨64, 32⟩ mainConfig (fun _ => none) = some first ∧
      (∃ info, run (step ⟨64, 32⟩ mainConfig) first
        (repliedRun ++ [.workReturn 0, .afterWork 0, .release 0]) = some info) ∧
      Along (step ⟨64, 32⟩ mainConfig) Timely first
        (repliedRun ++ [.workReturn 0, .afterWork 0, .release 0]) ∧
      Along (step ⟨64, 32⟩ mainConfig) WorkDelivered first
        (repliedRun ++ [.workReturn 0, .afterWork 0, .release 0]) :=
    ⟨_, rfl, ⟨_, rfl⟩, by decide, by decide⟩
  exact ⟨first, begun, (safe_release_iff begun ran timely).mpr delivered⟩

/-- The sweep erases the task while its `after_work_cb` is still to be delivered. -/
theorem unsafe_release :
    ∃ first, begin ⟨64, 32⟩ mainConfig (fun _ => none) = some first ∧
      (∃ info, run (step ⟨64, 32⟩ mainConfig) first
        (repliedRun ++ [.workReturn 0, .release 0, .afterWork 0]) = some info) ∧
      builtin mainConfig = true ∧
      Along (step ⟨64, 32⟩ mainConfig) Timely first
        (repliedRun ++ [.workReturn 0, .release 0, .afterWork 0]) ∧
      ¬Along (step ⟨64, 32⟩ mainConfig) (SafeStep ⟨64, 32⟩ mainConfig) first
        (repliedRun ++ [.workReturn 0, .release 0, .afterWork 0]) :=
  ⟨_, rfl, ⟨_, rfl⟩, by decide, by decide, by decide⟩

end EasyStressTest.SafeRelease
