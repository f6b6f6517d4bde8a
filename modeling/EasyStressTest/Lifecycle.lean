import EasyStressTest.Loop

/-!
The life of one task. A view is what the whole system says about one node: its memory,
whether `task_list` holds it, how many entries of `to_delete_task_list` point to it, and what
the program did with it. `LifeStep` lists everything that one event can do to a view, and the
invariants of a single life are proved from that list alone. `Simulation` connects it to the
program.
-/

namespace EasyStressTest.Lifecycle
open Define HttpTask Tasks Libuv Callbacks Loop

structure View where
  task : TcpTask
  listed : Bool
  marked : Nat
  acts : List Act
  walked : Bool

def actsOf (log : List (Nat × Act)) (n : Nat) : List Act :=
  log.filterMap fun entry => if entry.1 = n then some entry.2 else none

def marksOf (entries : List DeleteNode) (n : Nat) : Nat :=
  entries.countP fun node => node.ptask = n

def view (info : MainInfo) (n : Nat) : View where
  task := info.heap n
  listed := info.tasks.find (info.heap n).id == some n
  marked := marksOf info.tasks.toDeleteTaskList n
  acts := actsOf info.log n
  walked := info.walked

/-- The task that an event is about; ticks, sweeps and the walk concern all tasks. -/
def target : Event → Option Nat
  | .tick _ => none
  | .release _ => none
  | .workInit n => some n
  | .workConnect n _ => some n
  | .workReturn n => some n
  | .afterWork n => some n
  | .connected n _ _ _ => some n
  | .readNone n => some n
  | .readError n _ => some n
  | .readData n _ => some n
  | .written n _ => some n
  | .readRetired n => some n
  | .closed n _ => some n
  | .walk => none

/-- The act of calling an entry of the callback table, when the table has one. -/
def call (builtin : Bool) (name : Callback) : List Act :=
  if builtin then [.callback name] else []

@[simp] def withConn (task : TcpTask) (conn : UvTcp) : TcpTask := { task with conn := conn }

@[simp] def withStage (task : TcpTask) (stage : WorkStage) : TcpTask :=
  { task with workReq := { task.workReq with stage := stage } }

@[simp] def closeOpen (task : TcpTask) (notify : Bool) : TcpTask :=
  withConn task (uvCloseOpen task.conn notify)

@[simp] def finishClose (task : TcpTask) : TcpTask := withConn task { task.conn with state := .closed }

/-- `uv_read_start` on an open handle. -/
@[simp] def startRead (task : TcpTask) : TcpTask :=
  withConn task { addRequest task.conn with reading := true, readPending := true }

@[simp] def withReply (task : TcpTask) (reply : HttpData) : TcpTask := { task with reversed := some reply }

/-- The task that `tcp_task_post` leaves in a new node. -/
def posted (n : Nat) (id : UInt64) (addr : SockaddrIn) : TcpTask :=
  { TcpTask.zero with
    conn := { TcpTask.zero.conn with data := some (.node n) }
    connectReq := ⟨some (.node n), []⟩
    workReq := ⟨some (.node n), .queued, 0⟩
    id := id
    addr := addr }

def newborn (builtin : Bool) (n : Nat) (id : UInt64) (addr : SockaddrIn) : View where
  task := posted n id addr
  listed := true
  marked := 0
  acts := .added id :: (call builtin .onInit ++ [.queued])
  walked := false

inductive LifeStep (sizeBits : Nat) (builtin : Bool) (n : Nat) : Event → View → View → Prop where
  | other {event : Event} {view : View} (apart : target event ≠ some n) (staying : event ≠ .walk) :
      LifeStep sizeBits builtin n event view view
  | erase {now : Int} {view : View} (timeDeleted : Int) (marked : view.marked = 1)
      (listed : view.listed = true) (ready : releasable view.task timeDeleted now = true) :
      LifeStep sizeBits builtin n (.release now) view
        { view with listed := false, marked := 0, acts := view.acts ++ [.erased view.task.id] }
  | walkOpen {view : View} (opened : view.task.conn.state = .opened) :
      LifeStep sizeBits builtin n .walk view
        { view with
          task := closeOpen view.task false, acts := view.acts ++ [.close false], walked := true }
  | walkOther {view : View} (notOpened : view.task.conn.state ≠ .opened) :
      LifeStep sizeBits builtin n .walk view { view with walked := true }
  | workInit {view : View} (queued : view.task.workReq.stage = .queued) :
      LifeStep sizeBits builtin n (.workInit n) view
        { view with
          task := withStage (withConn view.task (uvTcpInit view.task.conn)) .initialised }
  | workConnect {view : View} {r : Int} (initialised : view.task.workReq.stage = .initialised)
      (code : r ≤ 0) :
      LifeStep sizeBits builtin n (.workConnect n r) view
        { view with
          task := { submit view.task .connect r with
            workReq := { view.task.workReq with r := r, stage := .connected } } }
  | workReturn {view : View} (connected : view.task.workReq.stage = .connected) :
      LifeStep sizeBits builtin n (.workReturn n) view
        { view with task := withStage view.task .returned }
  | afterWork {view : View} (returned : view.task.workReq.stage = .returned) :
      LifeStep sizeBits builtin n (.afterWork n) view
        { view with task := withStage view.task .delivered }
  | connectOk {view : View} {now written : Int}
      (submitted : ReqKind.connect ∈ view.task.connectReq.submitted)
      (unclosed : uvIsClosing view.task.conn = false) (code : written ≤ 0)
      (http : builtin = true) :
      LifeStep sizeBits builtin n (.connected n 0 now written) view
        { view with
          task := withReply (startRead (submit (complete view.task .connect) .write written)) .fresh
          acts := view.acts ++ [.callback .onConnectedSuccessful] }
  | connectBare {view : View} {now written : Int}
      (submitted : ReqKind.connect ∈ view.task.connectReq.submitted)
      (unclosed : uvIsClosing view.task.conn = false) (script : builtin = false) :
      LifeStep sizeBits builtin n (.connected n 0 now written) view
        { view with task := startRead (complete view.task .connect) }
  | connectFail {view : View} {status now written : Int} (failed : status ≠ 0)
      (submitted : ReqKind.connect ∈ view.task.connectReq.submitted)
      (unclosed : uvIsClosing view.task.conn = false) :
      LifeStep sizeBits builtin n (.connected n status now written) view
        { view with
          task := closeOpen (complete view.task .connect) false
          marked := view.marked + 1
          acts := view.acts ++ call builtin .onConnectedFailed ++ [.close false] }
  | connectCancelled {view : View} {status now written : Int} (failed : status ≠ 0)
      (submitted : ReqKind.connect ∈ view.task.connectReq.submitted)
      (closing : uvIsClosing view.task.conn = true) :
      LifeStep sizeBits builtin n (.connected n status now written) view
        { view with
          task := complete view.task .connect
          acts := view.acts ++ call builtin .onConnectedFailed }
  | readNone {view : View} (reading : isReading view.task.conn = true) :
      LifeStep sizeBits builtin n (.readNone n) view view
  | readError {view : View} {nread : Int} (reading : isReading view.task.conn = true) :
      LifeStep sizeBits builtin n (.readError n nread) view
        { view with
          task := closeOpen view.task true, acts := view.acts ++ [.close false] }
  | readMore {view : View} {received : List UInt8} {reply next : HttpData}
      (reading : isReading view.task.conn = true) (http : builtin = true)
      (constructed : view.task.reversed = some reply)
      (onRecv : reply.onRecv sizeBits received received.length = (next, false)) :
      LifeStep sizeBits builtin n (.readData n received) view
        { view with
          task := withReply view.task next, acts := view.acts ++ [.callback .onRecv] }
  | readEnd {view : View} {received : List UInt8} {reply next : HttpData}
      (reading : isReading view.task.conn = true) (http : builtin = true)
      (constructed : view.task.reversed = some reply)
      (onRecv : reply.onRecv sizeBits received received.length = (next, true)) :
      LifeStep sizeBits builtin n (.readData n received) view
        { view with
          task := { closeOpen (withReply view.task next) true with deleteImmediately := true }
          acts := view.acts ++ [.callback .onRecv, .close false] }
  | readBare {view : View} {received : List UInt8} (reading : isReading view.task.conn = true)
      (script : builtin = false) :
      LifeStep sizeBits builtin n (.readData n received) view view
  | writeOk {view : View} (submitted : ReqKind.write ∈ view.task.connectReq.submitted)
      (unclosed : uvIsClosing view.task.conn = false) :
      LifeStep sizeBits builtin n (.written n 0) view
        { view with
          task := complete view.task .write, acts := view.acts ++ call builtin .onSendOk }
  | writeError {view : View} {status : Int} (failed : status ≠ 0)
      (submitted : ReqKind.write ∈ view.task.connectReq.submitted)
      (unclosed : uvIsClosing view.task.conn = false) :
      LifeStep sizeBits builtin n (.written n status) view
        { view with
          task := closeOpen (complete view.task .write) true
          acts := view.acts ++ call builtin .onSendError ++ [.close false] }
  | writeCancelled {view : View} {status : Int} (failed : status ≠ 0)
      (submitted : ReqKind.write ∈ view.task.connectReq.submitted)
      (closing : uvIsClosing view.task.conn = true) :
      LifeStep sizeBits builtin n (.written n status) view
        { view with
          task := complete view.task .write
          acts := view.acts ++ call builtin .onSendError ++ [.close true] }
  | readRetired {view : View} (closing : isClosingNow view.task.conn = true)
      (pending : view.task.conn.readPending = true) :
      LifeStep sizeBits builtin n (.readRetired n) view
        { view with task := withConn view.task (retireRead view.task.conn) }
  | closedQuiet {view : View} {now : Int} (closing : view.task.conn.state = .closing false)
      (retired : view.task.conn.readPending = false)
      (drained : view.task.connectReq.submitted = []) :
      LifeStep sizeBits builtin n (.closed n now) view
        { view with task := finishClose view.task }
  | closedNotify {view : View} {now : Int} (closing : view.task.conn.state = .closing true)
      (retired : view.task.conn.readPending = false)
      (drained : view.task.connectReq.submitted = [])
      (constructed : builtin = true → view.task.reversed.isSome = true) :
      LifeStep sizeBits builtin n (.closed n now) view
        { view with
          task := finishClose view.task
          marked := view.marked + 1
          acts := view.acts ++ call builtin .onClose }

/-! The back-pointers. -/

structure Routed (n : Nat) (task : TcpTask) : Prop where
  connectData : task.connectReq.data = some (.node n)
  workData : task.workReq.data = some (.node n)
  connData : task.conn.data = some (.node n)

section
variable {sizeBits : Nat} {builtin : Bool} {n : Nat} {event : Event} {before after : View}

theorem Routed.fresh (id : UInt64) (addr : SockaddrIn) : Routed n (posted n id addr) :=
  ⟨rfl, rfl, rfl⟩

theorem Routed.step (routed : Routed n before.task)
    (taken : LifeStep sizeBits builtin n event before after) : Routed n after.task := by
  obtain ⟨connectData, workData, connData⟩ := routed
  cases taken <;> exact ⟨by simpa using connectData, by simpa using workData, by simpa using connData⟩

/-! How far the task has come. -/

structure Control (task : TcpTask) : Prop where
  absent : task.conn.state = .none ↔ task.workReq.stage = .queued
  started : task.workReq.stage ≠ .idle
  unconnected : task.workReq.stage = .queued ∨ task.workReq.stage = .initialised →
    task.connectReq.submitted = [] ∧ task.conn.reading = false ∧
      task.conn.readPending = false ∧ task.workReq.r = 0
  kinds : task.connectReq.submitted = [] ∨ task.connectReq.submitted = [.connect] ∨
    task.connectReq.submitted = [.write]
  connecting : ReqKind.connect ∈ task.connectReq.submitted →
    task.conn.reading = false ∧ task.conn.readPending = false
  reading : task.conn.reading = true → task.conn.state = .opened

theorem Control.fresh (id : UInt64) (addr : SockaddrIn) : Control (posted n id addr) where
  absent := by simp [posted, TcpTask.zero]
  started := by simp [posted]
  unconnected := by simp [posted, TcpTask.zero]
  kinds := by simp [posted]
  connecting := by simp [posted]
  reading := by simp [posted, TcpTask.zero]

/-- At most one request of the task is in flight. -/
theorem Control.alone {task : TcpTask} (control : Control task) {kind : ReqKind}
    (submitted : kind ∈ task.connectReq.submitted) : task.connectReq.submitted = [kind] := by
  rcases control.kinds with none | only | only
  · simp [none] at submitted
  · rw [only] at submitted ⊢
    rw [List.mem_singleton.mp submitted]
  · rw [only] at submitted ⊢
    rw [List.mem_singleton.mp submitted]

theorem Control.completed {task : TcpTask} (control : Control task) {kind : ReqKind}
    (submitted : kind ∈ task.connectReq.submitted) :
    (complete task kind).connectReq.submitted = [] := by
  simp [control.alone submitted]

/-- The task has left the first two stages of its work request. -/
def Past (task : TcpTask) : Prop :=
  task.workReq.stage ≠ .queued ∧ task.workReq.stage ≠ .initialised

theorem Past.early {task : TcpTask} (past : Past task) :
    ¬(task.workReq.stage = .queued ∨ task.workReq.stage = .initialised) := by
  intro early
  rcases early with queued | initialised
  · exact past.1 queued
  · exact past.2 initialised

theorem Control.past {task : TcpTask} (control : Control task) {kind : ReqKind}
    (submitted : kind ∈ task.connectReq.submitted) : Past task := by
  apply And.intro
  · intro early
    simp [(control.unconnected (Or.inl early)).1] at submitted
  · intro early
    simp [(control.unconnected (Or.inr early)).1] at submitted

theorem Control.past_of_reading {task : TcpTask} (control : Control task)
    (reads : isReading task.conn = true) : Past task := by
  have reading := ((isReading_iff _).mp reads).2
  apply And.intro
  · intro queued
    simp [(control.unconnected (Or.inl queued)).2.1] at reading
  · intro initialised
    simp [(control.unconnected (Or.inr initialised)).2.1] at reading

theorem Control.openedOf {task : TcpTask} (control : Control task) {kind : ReqKind}
    (submitted : kind ∈ task.connectReq.submitted) (unclosed : uvIsClosing task.conn = false) :
    task.conn.state = .opened := by
  have past := control.past submitted
  rcases (uvIsClosing_eq_false _).mp unclosed with absent | opened
  · exact absurd (control.absent.mp absent) past.1
  · exact opened

/-- A handle that exists belongs to a work request that a worker has taken up. -/
theorem Control.taken {task : TcpTask} (control : Control task) (present : task.conn.state ≠ .none) :
    task.workReq.stage ≠ .queued := fun queued => present (control.absent.mpr queued)

theorem Control.init {task : TcpTask} (control : Control task) (queued : task.workReq.stage = .queued) :
    Control (withStage (withConn task (uvTcpInit task.conn)) .initialised) where
  absent := by simp
  started := by simp
  unconnected := by
    intro _
    obtain ⟨idle, _, _, code⟩ := control.unconnected (Or.inl queued)
    exact ⟨idle, rfl, rfl, code⟩
  kinds := control.kinds
  connecting := fun _ => ⟨rfl, rfl⟩
  reading := by simp

theorem Control.connect {task : TcpTask} (control : Control task)
    (initialised : task.workReq.stage = .initialised) (r : Int) :
    Control { submit task .connect r with
      workReq := { task.workReq with r := r, stage := .connected } } := by
  obtain ⟨idle, unread, retired, _⟩ := control.unconnected (Or.inr initialised)
  have present : task.conn.state ≠ .none := by
    intro absent
    rw [control.absent.mp absent] at initialised
    cases initialised
  have sent := submit_idle task .connect r idle
  exact
    { absent := by simp [present]
      started := by simp
      unconnected := by simp
      kinds := sent.imp_right Or.inl
      connecting := fun _ => ⟨by simpa using unread, by simpa using retired⟩
      reading := by simp [unread] }

/-- A worker or the loop thread moves the work request on. -/
theorem Control.advance {task : TcpTask} (control : Control task) (past : Past task)
    {stage : WorkStage} (later : stage = .returned ∨ stage = .delivered) :
    Control (withStage task stage) := by
  have present : task.conn.state ≠ .none := fun absent => past.1 (control.absent.mp absent)
  rcases later with same | same
  · subst same
    exact ⟨by simp [present], by simp, by simp, control.kinds, control.connecting, control.reading⟩
  · subst same
    exact ⟨by simp [present], by simp, by simp, control.kinds, control.connecting, control.reading⟩

theorem Control.answer {task : TcpTask} (control : Control task) {kind : ReqKind}
    (submitted : kind ∈ task.connectReq.submitted) : Control (complete task kind) where
  absent := control.absent
  started := control.started
  unconnected := fun early => absurd early (control.past submitted).early
  kinds := Or.inl (control.completed submitted)
  connecting := by
    rw [control.completed submitted]
    intro impossible
    cases impossible
  reading := control.reading

theorem write_unsent {task : TcpTask} (idle : task.connectReq.submitted = []) (written : Int) :
    ReqKind.connect ∉ (submit task .write written).connectReq.submitted := by
  rcases submit_idle task .write written idle with none | only
  · rw [none]
    exact List.not_mem_nil
  · rw [only]
    decide

theorem Control.write {task : TcpTask} (control : Control task) (past : Past task)
    (idle : task.connectReq.submitted = []) (written : Int) : Control (submit task .write written) := by
  have sent := submit_idle task .write written idle
  exact
    { absent := by simpa using control.absent
      started := by simpa using control.started
      unconnected := by
        rw [submit_workReq]
        exact fun early => absurd early past.early
      kinds := sent.imp_right Or.inr
      connecting := fun connects => absurd connects (write_unsent idle written)
      reading := by simpa using control.reading }

theorem Control.read {task : TcpTask} (control : Control task) (past : Past task)
    (opened : task.conn.state = .opened) (unsent : ReqKind.connect ∉ task.connectReq.submitted) :
    Control (startRead task) where
  absent := control.absent
  started := control.started
  unconnected := fun early => absurd early past.early
  kinds := control.kinds
  connecting := fun submitted => absurd submitted unsent
  reading := fun _ => opened

theorem Control.reply {task : TcpTask} (control : Control task) (reply : HttpData) :
    Control (withReply task reply) :=
  ⟨control.absent, control.started, control.unconnected, control.kinds, control.connecting,
    control.reading⟩

theorem Control.close {task : TcpTask} (control : Control task) (present : task.conn.state ≠ .none)
    (notify : Bool) : Control (closeOpen task notify) where
  absent := by simpa using control.taken present
  started := control.started
  unconnected := by
    intro early
    obtain ⟨idle, _, retired, code⟩ := control.unconnected early
    exact ⟨idle, rfl, retired, code⟩
  kinds := control.kinds
  connecting := fun submitted => ⟨rfl, (control.connecting submitted).2⟩
  reading := by simp

theorem Control.retire {task : TcpTask} (control : Control task) :
    Control (withConn task (retireRead task.conn)) where
  absent := control.absent
  started := control.started
  unconnected := by
    intro early
    obtain ⟨idle, unread, _, code⟩ := control.unconnected early
    exact ⟨idle, unread, rfl, code⟩
  kinds := control.kinds
  connecting := fun submitted => ⟨(control.connecting submitted).1, rfl⟩
  reading := control.reading

theorem Control.finish {task : TcpTask} (control : Control task) {notify : Bool}
    (closing : task.conn.state = .closing notify) : Control (finishClose task) where
  absent := by simpa using control.taken (by simp [closing])
  started := control.started
  unconnected := control.unconnected
  kinds := control.kinds
  connecting := control.connecting
  reading := by
    intro reads
    have opened := control.reading reads
    rw [closing] at opened
    cases opened

theorem Control.step (control : Control before.task)
    (taken : LifeStep sizeBits builtin n event before after) : Control after.task := by
  cases taken with
  | other => exact control
  | erase => exact control
  | walkOpen opened => exact control.close (by simp [opened]) false
  | walkOther => exact control
  | workInit queued => exact control.init queued
  | workConnect initialised => exact control.connect initialised _
  | workReturn connected => exact control.advance (by simp [Past, connected]) (Or.inl rfl)
  | afterWork returned => exact control.advance (by simp [Past, returned]) (Or.inr rfl)
  | @connectOk _ now written submitted unclosed =>
    have past := control.past submitted
    have idle := control.completed submitted
    have opened := control.openedOf submitted unclosed
    have writes := (control.answer submitted).write past idle written
    have later : Past (submit (complete before.task .connect) .write written) := by
      simpa [Past] using past
    exact (writes.read later (by simpa using opened) (write_unsent idle written)).reply _
  | connectBare submitted unclosed =>
    have unsent : ReqKind.connect ∉ (complete before.task .connect).connectReq.submitted := by
      rw [control.completed submitted]
      exact List.not_mem_nil
    exact (control.answer submitted).read (control.past submitted)
      (control.openedOf submitted unclosed) unsent
  | connectFail failed submitted unclosed =>
    have opened := control.openedOf submitted unclosed
    exact (control.answer submitted).close (by simp [opened]) false
  | connectCancelled failed submitted => exact control.answer submitted
  | readNone => exact control
  | readError reads =>
    have opened := ((isReading_iff _).mp reads).1
    exact control.close (by simp [opened]) true
  | readMore reads => exact control.reply _
  | readEnd reads =>
    have opened := ((isReading_iff _).mp reads).1
    obtain ⟨absent, started, unconnected, kinds, connecting, reading⟩ :=
      (control.reply _).close (by simpa using by simp [opened]) true
    exact ⟨absent, started, unconnected, kinds, connecting, reading⟩
  | readBare => exact control
  | writeOk submitted => exact control.answer submitted
  | writeError failed submitted unclosed =>
    have opened := control.openedOf submitted unclosed
    exact (control.answer submitted).close (by simp [opened]) true
  | writeCancelled failed submitted => exact control.answer submitted
  | readRetired => exact control.retire
  | closedQuiet closing => exact control.finish closing
  | closedNotify closing => exact control.finish closing

/-! The request counters of the handle. -/

structure Counted (task : TcpTask) : Prop where
  reqsPending : task.conn.reqsPending =
    task.connectReq.submitted.length + task.conn.readPending.toNat
  activecnt : task.conn.activecnt =
    (task.connectReq.submitted.length + task.conn.readPending.toNat : Nat)

theorem Counted.fresh (id : UInt64) (addr : SockaddrIn) : Counted (posted n id addr) :=
  ⟨rfl, rfl⟩

theorem Counted.send {task : TcpTask} (counted : Counted task) (kind : ReqKind) (r : Int) :
    Counted (submit task kind r) := by
  obtain ⟨reqsPending, activecnt⟩ := counted
  by_cases accepted : r = 0
  · subst accepted
    simp only [submit, if_pos, addRequest]
    exact ⟨by simp; omega, by simp; omega⟩
  · rw [submit_refused _ _ _ accepted]
    exact ⟨reqsPending, activecnt⟩

theorem Counted.answer {task : TcpTask} (counted : Counted task) {kind : ReqKind}
    (alone : task.connectReq.submitted = [kind]) : Counted (complete task kind) := by
  obtain ⟨reqsPending, activecnt⟩ := counted
  rw [alone, List.length_singleton] at reqsPending activecnt
  exact ⟨by simp [alone]; omega, by simp [alone]; omega⟩

theorem Counted.read {task : TcpTask} (counted : Counted task)
    (retired : task.conn.readPending = false) : Counted (startRead task) := by
  obtain ⟨reqsPending, activecnt⟩ := counted
  rw [retired] at reqsPending activecnt
  exact ⟨by simp at reqsPending ⊢; omega, by simp at activecnt ⊢; omega⟩

theorem Counted.retire {task : TcpTask} (counted : Counted task)
    (pending : task.conn.readPending = true) : Counted (withConn task (retireRead task.conn)) := by
  obtain ⟨reqsPending, activecnt⟩ := counted
  rw [pending] at reqsPending activecnt
  exact ⟨by simp at reqsPending ⊢; omega, by simp at activecnt ⊢; omega⟩

theorem Counted.step (counted : Counted before.task) (control : Control before.task)
    (taken : LifeStep sizeBits builtin n event before after) : Counted after.task := by
  have same : ∀ task : TcpTask, Counted task → ∀ notify,
      Counted (closeOpen task notify) := fun _ own _ => ⟨own.reqsPending, own.activecnt⟩
  cases taken with
  | other => exact counted
  | erase => exact counted
  | walkOpen opened => exact same _ counted false
  | walkOther => exact counted
  | workInit queued =>
    have idle := (control.unconnected (Or.inl queued)).1
    exact ⟨by simp [idle], by simp [idle]⟩
  | @workConnect _ r =>
    have sent := counted.send .connect r
    exact ⟨sent.reqsPending, sent.activecnt⟩
  | workReturn => exact ⟨counted.reqsPending, counted.activecnt⟩
  | afterWork => exact ⟨counted.reqsPending, counted.activecnt⟩
  | @connectOk _ now written submitted =>
    have quiet := control.connecting submitted
    have writes := (counted.answer (control.alone submitted)).send .write written
    have reads := writes.read (by simpa using quiet.2)
    exact ⟨reads.reqsPending, reads.activecnt⟩
  | connectBare submitted =>
    have quiet := control.connecting submitted
    exact (counted.answer (control.alone submitted)).read quiet.2
  | connectFail failed submitted => exact same _ (counted.answer (control.alone submitted)) false
  | connectCancelled failed submitted => exact counted.answer (control.alone submitted)
  | readNone => exact counted
  | readError => exact same _ counted true
  | readMore => exact ⟨counted.reqsPending, counted.activecnt⟩
  | readEnd => exact ⟨counted.reqsPending, counted.activecnt⟩
  | readBare => exact counted
  | writeOk submitted => exact counted.answer (control.alone submitted)
  | writeError failed submitted => exact same _ (counted.answer (control.alone submitted)) true
  | writeCancelled failed submitted => exact counted.answer (control.alone submitted)
  | readRetired closing pending => exact counted.retire pending
  | closedQuiet => exact ⟨counted.reqsPending, counted.activecnt⟩
  | closedNotify => exact ⟨counted.reqsPending, counted.activecnt⟩

/-! Membership in the two containers. -/

def isErased : Act → Bool
  | .erased _ => true
  | _ => false

structure Placed (view : View) : Prop where
  ahead : view.task.conn.state = .none ∨ view.task.conn.state = .opened ∨
    view.task.conn.state = .closing true → view.listed = true ∧ view.marked = 0
  once : view.marked ≤ 1
  kept : view.marked = 1 → view.listed = true
  erasedOnce : view.acts.countP isErased = if view.listed then 0 else 1

@[simp] theorem countP_call (name : Callback) : (call builtin name).countP isErased = 0 := by
  cases builtin <;> rfl

theorem Placed.newborn (id : UInt64) (addr : SockaddrIn) : Placed (newborn builtin n id addr) where
  ahead := by simp [Lifecycle.newborn]
  once := by simp [Lifecycle.newborn]
  kept := by simp [Lifecycle.newborn]
  erasedOnce := by simp [Lifecycle.newborn, isErased]

/-- An entry is made for a task that has none: its handle was open or awaiting `close_cb`. -/
theorem Placed.marking {view : View} (placed : Placed view)
    (ahead : view.task.conn.state = .none ∨ view.task.conn.state = .opened ∨
      view.task.conn.state = .closing true) {task : TcpTask} {acts : List Act}
    (closing : task.conn.state = .closing false ∨ task.conn.state = .closed)
    (quiet : acts.countP isErased = 0) :
    Placed { view with task := task, marked := view.marked + 1, acts := view.acts ++ acts } := by
  obtain ⟨listed, unmarked⟩ := placed.ahead ahead
  have erasedOnce := placed.erasedOnce
  rcases closing with closing | closed
  · constructor <;> simp_all
  · constructor <;> simp_all

theorem Placed.step (placed : Placed before) (control : Control before.task)
    (taken : LifeStep sizeBits builtin n event before after) : Placed after := by
  have same := placed
  obtain ⟨ahead, once, kept, erasedOnce⟩ := placed
  cases taken with
  | other => exact same
  | erase timeDeleted marked listed ready =>
    have closing : uvIsClosing before.task.conn = true := by
      simp only [releasable, Bool.and_eq_true] at ready
      exact ready.1.1.2
    rcases (uvIsClosing_eq_true _).mp closing with ⟨notify, state⟩ | state
    · cases notify
      · constructor <;> simp_all [isErased]
      · constructor <;> simp_all
    · constructor <;> simp_all [isErased]
  | walkOpen opened => constructor <;> simp_all [isErased]
  | walkOther => exact ⟨ahead, once, kept, erasedOnce⟩
  | workInit queued =>
    have absent := control.absent.mpr queued
    constructor <;> simp_all
  | workConnect initialised code => constructor <;> simp_all
  | workReturn connected => exact ⟨ahead, once, kept, erasedOnce⟩
  | afterWork returned => exact ⟨ahead, once, kept, erasedOnce⟩
  | connectOk submitted unclosed code http => constructor <;> simp_all [isErased]
  | connectBare submitted unclosed script => exact ⟨ahead, once, kept, erasedOnce⟩
  | connectFail failed submitted unclosed =>
    have opened := control.openedOf submitted unclosed
    rw [List.append_assoc]
    exact same.marking (Or.inr (Or.inl opened)) (Or.inl rfl) (by simp [isErased])
  | connectCancelled failed submitted closing => constructor <;> simp_all
  | readNone => exact same
  | readError reads =>
    have opened := ((isReading_iff _).mp reads).1
    constructor <;> simp_all [isErased]
  | readMore reads => constructor <;> simp_all [isErased]
  | readEnd reads =>
    have opened := ((isReading_iff _).mp reads).1
    constructor <;> simp_all [isErased]
  | readBare => exact same
  | writeOk submitted unclosed => constructor <;> simp_all
  | writeError failed submitted unclosed =>
    have opened := control.openedOf submitted unclosed
    constructor <;> simp_all [isErased]
  | writeCancelled failed submitted closing => constructor <;> simp_all [isErased]
  | readRetired closing pending => exact ⟨ahead, once, kept, erasedOnce⟩
  | closedQuiet closing retired drained => constructor <;> simp_all
  | closedNotify closing retired drained constructed =>
    exact same.marking (Or.inr (Or.inr closing)) (Or.inr rfl) (by simp)

end

end EasyStressTest.Lifecycle
