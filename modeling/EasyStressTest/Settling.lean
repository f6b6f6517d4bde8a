import EasyStressTest.Assertions
import EasyStressTest.Progress
import EasyStressTest.SafeRelease

/-!
What is left of a task once its handle is closing, or once `close_loop` has walked the loop: a few
completions that libuv cannot withhold. Each event of the task is one of them, so they come to an end,
and then the task is finished.
-/

namespace EasyStressTest.Settling
open Define HttpTask Options Tasks Libuv Callbacks Loop Execution Lifecycle Simulation Population
open Reachability SafeRelease Assertions Progress

/-- A connect, write or work request of the task is in flight. -/
def requested (task : TcpTask) : Bool :=
  !task.connectReq.submitted.isEmpty || !(task.workReq.stage == .idle || task.workReq.stage == .delivered)

/-- What `uv_run` is documented to wait for: a request, a handle to be closed, or an active handle. -/
def keepsRunning (task : TcpTask) : Bool :=
  requested task || isClosingNow task.conn || task.conn.state == .opened && 0 < task.conn.activecnt

/-! The events that are left of one task. -/

def stagesLeft : WorkStage → Nat
  | .queued => 4
  | .initialised => 3
  | .connected => 2
  | .returned => 1
  | _ => 0

def eventsLeft (task : TcpTask) : Nat :=
  2 * stagesLeft task.workReq.stage + task.connectReq.submitted.length + task.conn.readPending.toNat +
    (isClosingNow task.conn).toNat

/-- A task after the walk: when its handle is open, a late worker has opened it and nothing came of it. -/
def Leaving (task : TcpTask) : Prop :=
  task.conn.state = .opened →
    task.connectReq.submitted = [] ∧ task.conn.reading = false ∧ task.conn.readPending = false

/-- The late worker's `uv_tcp_connect` is refused. -/
def Refused (n : Nat) (task : TcpTask) (event : Event) : Prop :=
  ∀ r, event = .workConnect n r → task.conn.state = .opened → r ≠ 0

section
variable {sizeBits : Nat} {http : Bool} {n : Nat} {event : Event} {before after : View} {task : TcpTask}

theorem Leaving.unread (leaving : Leaving task) : isReading task.conn = false := by
  by_cases opened : task.conn.state = .opened
  · simp [isReading, (leaving opened).2.1]
  · simp [isReading, opened]

theorem Leaving.closing (leaving : Leaving task) (control : Control task) {kind : ReqKind}
    (submitted : kind ∈ task.connectReq.submitted) : uvIsClosing task.conn = true := by
  by_contra unclosed
  have opened := control.openedOf submitted (Bool.eq_false_iff.mpr unclosed)
  rw [(leaving opened).1] at submitted
  exact List.not_mem_nil submitted

theorem submitted_le (control : Control task) : task.connectReq.submitted.length ≤ 1 := by
  rcases control.kinds with none | connect | write
  · simp [none]
  · simp [connect]
  · simp [write]

theorem eventsLeft_le (control : Control task) (begun : task.workReq.stage ≠ .queued) : eventsLeft task ≤ 7 := by
  have single := submitted_le control
  have pending := Bool.toNat_le task.conn.readPending
  have closing := Bool.toNat_le (isClosingNow task.conn)
  by_cases initialised : task.workReq.stage = .initialised
  · obtain ⟨none, _, retired, _⟩ := control.unconnected (Or.inr initialised)
    simp only [eventsLeft, initialised, none, retired, stagesLeft, List.length_nil, Bool.toNat_false]
    omega
  · have late : stagesLeft task.workReq.stage ≤ 2 := by
      cases stage : task.workReq.stage <;> simp_all [stagesLeft]
    unfold eventsLeft
    omega

theorem eventsLeft_connect {r : Int} (initialised : task.workReq.stage = .initialised) :
    eventsLeft { submit task .connect r with workReq := { task.workReq with r := r, stage := .connected } } <
      eventsLeft task := by
  have longer : (submit task .connect r).connectReq.submitted.length ≤ task.connectReq.submitted.length + 1 := by
    by_cases accepted : r = 0
    · simp [submit_accepted _ _ _ accepted]
    · simp [submit_refused _ _ _ accepted]
  have same : isClosingNow (submit task .connect r).conn = isClosingNow task.conn := by
    simp [isClosingNow]
  simp only [eventsLeft, initialised, stagesLeft, submit_readPending, same]
  omega

theorem eventsLeft_complete (control : Control task) {kind : ReqKind}
    (submitted : kind ∈ task.connectReq.submitted) : eventsLeft (complete task kind) < eventsLeft task := by
  have alone := control.alone submitted
  simp [eventsLeft, alone, isClosingNow]

/-- An event about a task is one of those that were left of it. -/
theorem eventsLeft_lt (leaving : Leaving before.task) (control : Control before.task)
    (about : target event = some n) (taken : LifeStep sizeBits http n event before after) :
    eventsLeft after.task < eventsLeft before.task := by
  have unread := leaving.unread
  cases taken with
  | other apart => exact absurd about apart
  | erase => cases about
  | walkOpen => cases about
  | walkOther => cases about
  | workInit queued =>
    have absent := control.absent.mpr queued
    simp only [eventsLeft, queued, stagesLeft, isClosingNow, absent, withStage, withConn, uvTcpInit,
      Bool.toNat_false]
    omega
  | workConnect initialised => exact eventsLeft_connect initialised
  | workReturn connected => simp [eventsLeft, connected, stagesLeft]
  | afterWork returned => simp [eventsLeft, returned, stagesLeft]
  | connectOk submitted unclosed => simp [leaving.closing control submitted] at unclosed
  | connectBare submitted unclosed => simp [leaving.closing control submitted] at unclosed
  | connectFail failed submitted unclosed => simp [leaving.closing control submitted] at unclosed
  | connectCancelled failed submitted => exact eventsLeft_complete control submitted
  | readNone reading => simp [unread] at reading
  | readError reading => simp [unread] at reading
  | readMore reading => simp [unread] at reading
  | readEnd reading => simp [unread] at reading
  | readBare reading => simp [unread] at reading
  | writeOk submitted unclosed => simp [leaving.closing control submitted] at unclosed
  | writeError failed submitted unclosed => simp [leaving.closing control submitted] at unclosed
  | writeCancelled failed submitted => exact eventsLeft_complete control submitted
  | readRetired closing pending => simp [eventsLeft, pending, isClosingNow]
  | closedQuiet closing => simp [eventsLeft, isClosingNow, closing]
  | closedNotify closing => simp [eventsLeft, isClosingNow, closing]

theorem Leaving.step (leaving : Leaving before.task) (control : Control before.task)
    (refused : Refused n before.task event) (taken : LifeStep sizeBits http n event before after) :
    Leaving after.task := by
  have unread := leaving.unread
  cases taken with
  | walkOpen opened => exact fun still => by simp at still
  | workInit queued => exact fun _ => ⟨(control.unconnected (Or.inl queued)).1, rfl, rfl⟩
  | @workConnect _ r initialised =>
    intro opened
    rw [submit_state] at opened
    rw [submit_refused _ _ _ (refused r rfl opened)]
    exact leaving opened
  | connectOk submitted unclosed => simp [leaving.closing control submitted] at unclosed
  | connectBare submitted unclosed => simp [leaving.closing control submitted] at unclosed
  | connectFail failed submitted unclosed => simp [leaving.closing control submitted] at unclosed
  | connectCancelled failed submitted =>
    intro opened
    simp [(leaving opened).1] at submitted
  | readError reading => simp [unread] at reading
  | readMore reading => simp [unread] at reading
  | readEnd reading => simp [unread] at reading
  | writeOk submitted unclosed => simp [leaving.closing control submitted] at unclosed
  | writeError failed submitted unclosed => simp [leaving.closing control submitted] at unclosed
  | writeCancelled failed submitted =>
    intro opened
    simp [(leaving opened).1] at submitted
  | readRetired closing =>
    intro opened
    simp [isClosingNow, show before.task.conn.state = .opened from opened] at closing
  | closedQuiet => exact fun opened => by simp at opened
  | closedNotify => exact fun opened => by simp at opened
  | _ => exact leaving

theorem closing_step (control : Control before.task) (closing : uvIsClosing before.task.conn = true)
    (taken : LifeStep sizeBits http n event before after) : uvIsClosing after.task.conn = true := by
  have unopened := not_opened_of_closing closing
  cases taken with
  | walkOpen opened => exact absurd opened unopened
  | workInit queued => simp [uvIsClosing, control.absent.mpr queued] at closing
  | workConnect => simpa [uvIsClosing] using closing
  | connectOk submitted unclosed => simp [closing] at unclosed
  | connectBare submitted unclosed => simp [closing] at unclosed
  | connectFail => rfl
  | readError => rfl
  | readEnd => rfl
  | writeError => rfl
  | closedQuiet => rfl
  | closedNotify => rfl
  | _ => exact closing

theorem closing_apart (closing : uvIsClosing before.task.conn = true) (apart : target event ≠ some n)
    (taken : LifeStep sizeBits http n event before after) : after.task = before.task := by
  cases taken with
  | other => rfl
  | erase => rfl
  | walkOpen opened => exact absurd opened (not_opened_of_closing closing)
  | walkOther => rfl
  | _ => exact absurd rfl apart

/-- An open handle that nothing came of stays open. -/
theorem opened_step (leaving : Leaving before.task) (opened : before.task.conn.state = .opened)
    (staying : event ≠ .walk) (control : Control before.task)
    (taken : LifeStep sizeBits http n event before after) : after.task.conn.state = .opened := by
  have unread := leaving.unread
  cases taken with
  | walkOpen => exact absurd rfl staying
  | walkOther => exact absurd rfl staying
  | connectFail failed submitted unclosed => simp [leaving.closing control submitted] at unclosed
  | readError reading => simp [unread] at reading
  | readEnd reading => simp [unread] at reading
  | writeError failed submitted unclosed => simp [leaving.closing control submitted] at unclosed
  | readRetired closing => simp [isClosingNow, opened] at closing
  | closedQuiet closing => simp [opened] at closing
  | closedNotify closing => simp [opened] at closing
  | _ => simp_all

end

/-! What is left has an event. -/

/-- No late worker's `uv_tcp_connect` succeeds. -/
def Refusing (info : MainInfo) (event : Event) : Prop := ∀ n < info.nodes, Refused n (info.heap n) event

section
variable {platform : Platform} {config : MainConfig} {info next last : MainInfo} {event : Event}
  {events : List Event} {n : Nat}

theorem refusing_of_ne (other : ∀ n r, event ≠ .workConnect n r) : Refusing info event :=
  fun n _ r same => absurd same (other n r)

theorem work_enabled (bound : n < info.nodes) (started : (info.heap n).workReq.stage ≠ .idle)
    (undelivered : (info.heap n).workReq.stage ≠ .delivered) :
    ∃ event, target event = some n ∧ enabled info event = true ∧ Refusing info event := by
  cases stage : (info.heap n).workReq.stage with
  | idle => exact absurd stage started
  | queued => exact ⟨.workInit n, rfl, by simp [enabled, bound, stage], refusing_of_ne (by simp)⟩
  | initialised =>
    refine ⟨.workConnect n (-1), rfl, by simp [enabled, bound, stage], fun m _ r same _ => ?_⟩
    cases same
    decide
  | connected => exact ⟨.workReturn n, rfl, by simp [enabled, bound, stage], refusing_of_ne (by simp)⟩
  | returned => exact ⟨.afterWork n, rfl, by simp [enabled, bound, stage], refusing_of_ne (by simp)⟩
  | delivered => exact absurd stage undelivered

/-- A request that is left can complete as cancelled. -/
theorem cancel_enabled {kind : ReqKind} (bound : n < info.nodes)
    (submitted : kind ∈ (info.heap n).connectReq.submitted) :
    ∃ event, target event = some n ∧ enabled info event = true ∧ Refusing info event := by
  cases kind with
  | connect =>
    exact ⟨.connected n uvEcanceled 0 0, rfl, by simp [enabled, bound, submitted, statusAllowed],
      refusing_of_ne (by simp)⟩
  | write =>
    exact ⟨.written n uvEcanceled, rfl, by simp [enabled, bound, submitted, statusAllowed],
      refusing_of_ne (by simp)⟩

/-- What keeps the loop going has an event. -/
theorem event_enabled (life : Life n (view info n)) (leaving : Leaving (info.heap n)) (bound : n < info.nodes)
    (running : keepsRunning (info.heap n) = true) :
    ∃ event, target event = some n ∧ enabled info event = true ∧ Refusing info event := by
  have started : (info.heap n).workReq.stage ≠ .idle := life.control.started
  by_cases undelivered : (info.heap n).workReq.stage ≠ .delivered
  · exact work_enabled bound started undelivered
  · cases flight : (info.heap n).connectReq.submitted with
    | cons kind others =>
      have submitted : kind ∈ (info.heap n).connectReq.submitted := by
        rw [flight]
        exact List.mem_cons_self
      exact cancel_enabled bound submitted
    | nil =>
      have unrequested : requested (info.heap n) = false := by
        simp [requested, flight, not_not.mp undelivered]
      rw [keepsRunning, unrequested, Bool.false_or, Bool.or_eq_true] at running
      rcases running with closing | active
      · cases pending : (info.heap n).conn.readPending with
        | true =>
          exact ⟨.readRetired n, rfl, by simp [enabled, bound, closing, pending], refusing_of_ne (by simp)⟩
        | false =>
          exact ⟨.closed n 0, rfl, by simp [enabled, bound, closing, pending, flight],
            refusing_of_ne (by simp)⟩
      · have counted : (info.heap n).conn.activecnt = _ := life.counted.activecnt
        simp only [Bool.and_eq_true, beq_iff_eq, decide_eq_true_eq] at active
        have retired := (leaving active.1).2.2
        have idle : (info.heap n).conn.activecnt = 0 := by
          rw [counted]
          simp [view, flight, retired]
        omega

/-! A closing task. -/

theorem leaving_of_closing {task : TcpTask} (closing : uvIsClosing task.conn = true) : Leaving task :=
  fun opened => absurd opened (not_opened_of_closing closing)

theorem finished_of_still {task : TcpTask} (control : Control task) (closing : uvIsClosing task.conn = true)
    (still : keepsRunning task = false) : Finished task := by
  simp only [keepsRunning, requested, Bool.or_eq_false_iff, Bool.not_eq_eq_eq_not, Bool.not_false,
    List.isEmpty_iff, Bool.or_eq_true, beq_iff_eq] at still
  obtain ⟨⟨⟨drained, idle | delivered⟩, unclosing⟩, _⟩ := still
  · exact absurd idle control.started
  · rcases (uvIsClosing_eq_true _).mp closing with ⟨notify, state⟩ | state
    · simp [isClosingNow, state] at unclosing
    · exact ⟨state, drained, delivered⟩

/-- The events that are left of a closing task become fewer with each of its events. -/
theorem closing_run (good : Good info) (bound : n < info.nodes)
    (closing : uvIsClosing (info.heap n).conn = true)
    (ran : run (step platform config) info events = some last) :
    n < last.nodes ∧ uvIsClosing (last.heap n).conn = true ∧
      events.countP (fun event => target event == some n) + eventsLeft (last.heap n) ≤ eventsLeft (info.heap n) := by
  induction events generalizing info with
  | nil =>
    cases ran
    exact ⟨bound, closing, Nat.le_of_eq (Nat.zero_add _)⟩
  | cons event rest ih =>
    obtain ⟨next, taken, later⟩ := (run_cons _ info last event rest).mp ran
    have advance := step_advance good taken
    have life := advance.lived n bound
    have control : Control (view info n).task := (good.lives n bound).control
    have closing_now : uvIsClosing (view info n).task.conn = true := closing
    have still : uvIsClosing (view next n).task.conn = true := closing_step control closing_now life
    obtain ⟨within, ends, fewer⟩ := ih advance.good (Nat.lt_of_lt_of_le bound advance.grown) still later
    refine ⟨within, ends, ?_⟩
    rw [List.countP_cons]
    by_cases about : target event = some n
    · have lower : eventsLeft (view next n).task < eventsLeft (view info n).task :=
        eventsLeft_lt (leaving_of_closing closing_now) control about life
      change eventsLeft (next.heap n) < eventsLeft (info.heap n) at lower
      rw [if_pos (beq_iff_eq.mpr about)]
      omega
    · have same : (view next n).task = (view info n).task := closing_apart closing_now about life
      change next.heap n = info.heap n at same
      rw [if_neg (by simpa using about), ← same]
      exact fewer

/-- Once its handle is closing, a task has at most seven more events in any run, and at the end of the run
one of them can happen next or the task is finished. -/
theorem closing_settles (reached : Reachable platform config info) (bound : n < info.nodes)
    (closing : uvIsClosing (info.heap n).conn = true)
    (ran : run (step platform config) info events = some last) :
    events.countP (fun event => target event == some n) ≤ 7 ∧
      (Finished (last.heap n) ∨
        ∃ event next, target event = some n ∧ step platform config last event = some next) := by
  have good := reachable_good reached
  have control : Control (info.heap n) := (good.lives n bound).control
  obtain ⟨within, still, fewer⟩ := closing_run good bound closing ran
  have begun : (info.heap n).workReq.stage ≠ .queued := by
    apply control.taken
    intro absent
    simp [uvIsClosing, absent] at closing
  have few := eventsLeft_le control begun
  refine ⟨by omega, ?_⟩
  have arrived : Reachable platform config last :=
    run_preserves (fun _ _ _ reached taken => reachable_step reached taken) reached ran
  have life := (reachable_good arrived).lives n within
  cases running : keepsRunning (last.heap n) with
  | false => exact Or.inl (finished_of_still life.control still running)
  | true =>
    right
    obtain ⟨event, about, allowed, _⟩ := event_enabled life (leaving_of_closing still) within running
    have untimed : ∀ hosts, event ≠ .tick hosts := by
      intro hosts same
      rw [same] at about
      cases about
    obtain ⟨next, result⟩ := untimed_returns arrived allowed untimed
    exact ⟨event, next, about, step_eq_some.mpr ⟨allowed, result⟩⟩

end

/-- The read request of a page that came whole is retired, and the handle is still to be closed. -/
theorem closing_settles_page :
    ∃ info last, session ⟨64, 32⟩ mainConfig (fun _ => none)
        [.tick fun _ => some 0, .workInit 0, .workConnect 0 0, .workReturn 0, .afterWork 0, .connected 0 0 0 0,
          .written 0 0, .readData 0 (bytes "</html>\r\n\r\n")] = some info ∧
      run (step ⟨64, 32⟩ mainConfig) info [.release 0, .readRetired 0] = some last ∧
      ∃ event next, target event = some 0 ∧ step ⟨64, 32⟩ mainConfig last event = some next := by
  obtain ⟨info, last, reached, bound, closing, ran, unfinished⟩ : ∃ info last,
      session ⟨64, 32⟩ mainConfig (fun _ => none)
        [.tick fun _ => some 0, .workInit 0, .workConnect 0 0, .workReturn 0, .afterWork 0, .connected 0 0 0 0,
          .written 0 0, .readData 0 (bytes "</html>\r\n\r\n")] = some info ∧
      0 < info.nodes ∧ uvIsClosing (info.heap 0).conn = true ∧
      run (step ⟨64, 32⟩ mainConfig) info [.release 0, .readRetired 0] = some last ∧ ¬Finished (last.heap 0) :=
    ⟨_, _, rfl, by decide, by decide, rfl, by decide⟩
  have settles := (closing_settles ⟨_, _, reached⟩ bound closing ran).2
  exact ⟨info, last, reached, ran, settles.resolve_left unfinished⟩

end EasyStressTest.Settling
