import EasyStressTest.SafeRelease

/-!
Which task a callback acts on. `connect_req` serves a connect and then a write, and four
callbacks find their task through a back-pointer that `tcp_task_post` sets once.
-/

namespace EasyStressTest.Routing
open Define HttpTask Options Tasks Libuv Callbacks Loop Execution Lifecycle Simulation Population
open Reachability SafeRelease

/-- What a task no longer has when `task_list` drops it: a work request that could still submit,
and requests in flight. A task comes to the sweep through a close callback or a failed connect. -/
structure Detached (view : View) : Prop where
  notifying : view.task.conn.state = .closing true → Past view.task
  marked : view.marked ≠ 0 → Past view.task
  erased : view.listed = false → Past view.task ∧ view.task.connectReq.submitted = []

section
variable {sizeBits : Nat} {builtin : Bool} {n : Nat} {event : Event} {before after : View}

theorem Detached.newborn (id : UInt64) (addr : SockaddrIn) : Detached (newborn builtin n id addr) where
  notifying := by simp [Lifecycle.newborn, posted, TcpTask.zero]
  marked := by simp [Lifecycle.newborn]
  erased := by simp [Lifecycle.newborn]

theorem Past.step (past : Past before.task) (taken : LifeStep sizeBits builtin n event before after) :
    Past after.task := by
  obtain ⟨unqueued, further⟩ := past
  cases taken with
  | workInit queued => exact absurd queued unqueued
  | workConnect initialised => exact absurd initialised further
  | workReturn => exact ⟨by simp, by simp⟩
  | afterWork => exact ⟨by simp, by simp⟩
  | connectOk => exact ⟨by simpa using unqueued, by simpa using further⟩
  | _ => exact ⟨unqueued, further⟩

/-- Without a request in flight there is none to answer, and a work request that is past its
`uv_tcp_connect` does not submit one. -/
theorem idle_step (past : Past before.task) (idle : before.task.connectReq.submitted = [])
    (taken : LifeStep sizeBits builtin n event before after) : after.task.connectReq.submitted = [] := by
  have unsubmitted : ∀ kind, kind ∉ before.task.connectReq.submitted := by
    intro kind
    rw [idle]
    exact List.not_mem_nil
  cases taken with
  | workConnect initialised => exact absurd initialised past.2
  | connectOk submitted => exact absurd submitted (unsubmitted _)
  | connectBare submitted => exact absurd submitted (unsubmitted _)
  | connectFail _ submitted => exact absurd submitted (unsubmitted _)
  | connectCancelled _ submitted => exact absurd submitted (unsubmitted _)
  | writeOk submitted => exact absurd submitted (unsubmitted _)
  | writeError _ submitted => exact absurd submitted (unsubmitted _)
  | writeCancelled _ submitted => exact absurd submitted (unsubmitted _)
  | _ => exact idle

theorem idle_of_releasable {task : TcpTask} {timeDeleted now : Int} (counted : Counted task)
    (ready : releasable task timeDeleted now = true) : task.connectReq.submitted = [] := by
  simp only [releasable, Bool.and_eq_true, beq_iff_eq] at ready
  have requests := counted.reqsPending
  apply List.eq_nil_of_length_eq_zero
  omega

/-- A task in the first stages of its work request is listed and stays so. -/
theorem Detached.early (detached : Detached before) (early : ¬Past before.task) :
    before.task.conn.state ≠ .closing true ∧ before.marked = 0 ∧ before.listed = true := by
  refine ⟨fun closing => early (detached.notifying closing), ?_, ?_⟩
  · by_contra marked
    exact early (detached.marked marked)
  · by_contra unlisted
    exact early (detached.erased (by simpa using unlisted)).1

theorem Detached.step (life : Life n before) (detached : Detached before)
    (taken : LifeStep sizeBits builtin n event before after) : Detached after := by
  by_cases past : Past before.task
  · have later := Past.step past taken
    refine ⟨fun _ => later, fun _ => later, fun unlisted => ⟨later, ?_⟩⟩
    by_cases listed : before.listed = true
    · cases taken with
      | erase timeDeleted marked _ ready => exact idle_of_releasable life.counted ready
      | _ => exact absurd (listed.symm.trans unlisted) (by decide)
    · exact idle_step past (detached.erased (by simpa using listed)).2 taken
  · obtain ⟨quiet, unmarked, listed⟩ := detached.early past
    have unsubmitted : ∀ kind, kind ∉ before.task.connectReq.submitted :=
      fun kind submitted => past (life.control.past submitted)
    have unread : isReading before.task.conn ≠ true := fun reads => past (life.control.past_of_reading reads)
    cases taken with
    | other => exact detached
    | erase timeDeleted marked => exact absurd (unmarked.symm.trans marked) (by decide)
    | walkOpen => exact ⟨by simp, by simp [unmarked], by simp [listed]⟩
    | walkOther => exact ⟨detached.notifying, detached.marked, detached.erased⟩
    | workInit => exact ⟨by simp, by simp [unmarked], by simp [listed]⟩
    | workConnect => exact ⟨by simp [quiet], by simp [unmarked], by simp [listed]⟩
    | workReturn connected => exact absurd ⟨by simp [connected], by simp [connected]⟩ past
    | afterWork returned => exact absurd ⟨by simp [returned], by simp [returned]⟩ past
    | connectOk submitted => exact absurd submitted (unsubmitted _)
    | connectBare submitted => exact absurd submitted (unsubmitted _)
    | connectFail _ submitted => exact absurd submitted (unsubmitted _)
    | connectCancelled _ submitted => exact absurd submitted (unsubmitted _)
    | readNone => exact detached
    | readError reads => exact absurd reads unread
    | readMore reads => exact absurd reads unread
    | readEnd reads => exact absurd reads unread
    | readBare => exact detached
    | writeOk submitted => exact absurd submitted (unsubmitted _)
    | writeError _ submitted => exact absurd submitted (unsubmitted _)
    | writeCancelled _ submitted => exact absurd submitted (unsubmitted _)
    | readRetired => exact ⟨detached.notifying, detached.marked, detached.erased⟩
    | closedQuiet => exact ⟨by simp, by simp [unmarked], by simp [listed]⟩
    | closedNotify closing => exact absurd closing quiet

end

/-- The task whose `on_connect`, `read_cb`, `write_cb` or `close_cb` the event runs. -/
def callbackOf (info : MainInfo) : Event → Option Nat
  | .connected n _ _ _ => some n
  | .readNone n => some n
  | .readError n _ => some n
  | .readData n _ => some n
  | .written n _ => some n
  | .closed n _ => if (info.heap n).conn.state = .closing true then some n else none
  | _ => none

/-- Every request and handle leads back to its own task, `connect_req` has one submission at most,
and a callback finds a task of `task_list`, its own, and changes no other. -/
structure WellRouted (platform : Platform) (config : MainConfig) (info : MainInfo) : Prop where
  single : ∀ n < info.nodes, (info.heap n).connectReq.submitted.length ≤ 1
  routed : ∀ n < info.nodes, Routed n (info.heap n)
  stored : ∀ key n, info.tasks.find key = some n → n < info.nodes ∧ (info.heap n).id = key
  acting : ∀ event next p, step platform config info event = some next → callbackOf info event = some p →
    Listed info p ∧ Frame p info next

section
variable {platform : Platform} {config : MainConfig} {info next : MainInfo} {event : Event} {p : Nat}

theorem target_of_callback (runs : callbackOf info event = some p) : target event = some p := by
  cases event with
  | closed n now =>
    rw [callbackOf] at runs
    split at runs
    · exact runs
    · cases runs
  | connected => exact runs
  | readNone => exact runs
  | readError => exact runs
  | readData => exact runs
  | written => exact runs
  | _ => cases runs

theorem listed_of_reading (life : Life p (view info p)) (reads : isReading (info.heap p).conn = true) :
    Listed info p := by
  have opened := ((isReading_iff _).mp reads).1
  exact (listed_view p).mpr (life.placed.ahead (Or.inr (Or.inl opened))).1

theorem listed_of_submitted (detached : Detached (view info p)) {kind : ReqKind}
    (submitted : kind ∈ (info.heap p).connectReq.submitted) : Listed info p := by
  rw [listed_view]
  by_contra unlisted
  have idle : (info.heap p).connectReq.submitted = [] := (detached.erased (by simpa using unlisted)).2
  rw [idle] at submitted
  exact List.not_mem_nil submitted

/-- A task is in `task_list` when one of its callbacks runs. -/
theorem listed_of_callback (life : Life p (view info p)) (detached : Detached (view info p))
    (allowed : enabled info event = true) (runs : callbackOf info event = some p) : Listed info p := by
  cases event with
  | connected n status now written =>
    cases runs
    simp only [enabled, Bool.and_eq_true, List.contains_iff_mem] at allowed
    exact listed_of_submitted detached allowed.1.1.2
  | readNone n =>
    cases runs
    simp only [enabled, Bool.and_eq_true] at allowed
    exact listed_of_reading life allowed.2
  | readError n nread =>
    cases runs
    simp only [enabled, Bool.and_eq_true] at allowed
    exact listed_of_reading life allowed.1.2
  | readData n received =>
    cases runs
    simp only [enabled, Bool.and_eq_true] at allowed
    exact listed_of_reading life allowed.1.1.2
  | written n status =>
    cases runs
    simp only [enabled, Bool.and_eq_true, List.contains_iff_mem] at allowed
    exact listed_of_submitted detached allowed.1.2
  | closed n now =>
    rw [callbackOf] at runs
    split at runs
    · next closing =>
      cases runs
      exact (listed_view _).mpr (life.placed.ahead (Or.inr (Or.inr closing))).1
    · cases runs
  | _ => cases runs

/-- Requests and callbacks are routed to their own tasks in every reachable state. -/
theorem reachable_routed (reached : Reachable platform config info) : WellRouted platform config info := by
  have good := reachable_good reached
  have detached : ∀ n < info.nodes, Detached (view info n) :=
    reachable_lives (fun _ id addr => Detached.newborn id addr)
      (fun _ _ _ _ life holds taken => holds.step life taken) reached
  refine ⟨?_, fun n bound => (good.lives n bound).routed, good.keyed, ?_⟩
  · intro n bound
    have kinds : (info.heap n).connectReq.submitted = [] ∨ (info.heap n).connectReq.submitted = [.connect] ∨
        (info.heap n).connectReq.submitted = [.write] := (good.lives n bound).control.kinds
    rcases kinds with none | connects | writes
    · simp [none]
    · simp [connects]
    · simp [writes]
  · intro event next p taken runs
    obtain ⟨allowed, result⟩ := step_eq_some.mp taken
    have about := target_of_callback runs
    have bound := target_bound about allowed
    have life := good.lives p bound
    exact ⟨listed_of_callback life (detached p bound) allowed runs,
      (target_local about life.routed allowed result).frame⟩

end

/-- One task waits for its connection while another one has written its request. -/
theorem reachable_routed_two :
    ∃ info, session ⟨64, 32⟩ mainConfig (fun _ => none)
        [.tick fun _ => some 0, .tick fun _ => some 0, .workInit 1, .workConnect 1 0, .workInit 0,
          .workConnect 0 0, .connected 1 0 0 0] = some info ∧
      (info.heap 0).connectReq.submitted = [.connect] ∧ (info.heap 1).connectReq.submitted = [.write] ∧
        WellRouted ⟨64, 32⟩ mainConfig info := by
  obtain ⟨info, ran, first, second⟩ : ∃ info, session ⟨64, 32⟩ mainConfig (fun _ => none)
        [.tick fun _ => some 0, .tick fun _ => some 0, .workInit 1, .workConnect 1 0, .workInit 0,
          .workConnect 0 0, .connected 1 0 0 0] = some info ∧
      (info.heap 0).connectReq.submitted = [.connect] ∧ (info.heap 1).connectReq.submitted = [.write] :=
    ⟨_, rfl, rfl, rfl⟩
  exact ⟨info, ran, first, second, reachable_routed ⟨_, _, ran⟩⟩

end EasyStressTest.Routing
