import EasyStressTest.Callbacks
import EasyStressTest.Execution

/-!
The program as a transition system. An event is one callback on the loop thread, one stretch
of `work_uv_cb` on a worker thread, or something that libuv does without a callback. `enabled`
is libuv's contract: what can happen in a state. `exec` is what the program then does.
-/

namespace EasyStressTest.Loop
open Define Options Tasks Libuv Callbacks Execution

inductive Event where
  | tick (hosts : Nat → Option UInt32)
  | release (now : Int)
  | workInit (n : Nat)
  | workConnect (n : Nat) (r : Int)
  | workReturn (n : Nat)
  | afterWork (n : Nat)
  | connected (n : Nat) (status now written : Int)
  | readNone (n : Nat)
  | readError (n : Nat) (nread : Int)
  | readData (n : Nat) (received : List UInt8)
  | written (n : Nat) (status : Int)
  | readRetired (n : Nat)
  | closed (n : Nat) (now : Int)
  | walk

def isReading (conn : UvTcp) : Bool := conn.state == .opened && conn.reading

theorem isReading_iff (conn : UvTcp) :
    isReading conn = true ↔ conn.state = .opened ∧ conn.reading = true := by
  simp [isReading]

/-- The status of a request that completes: cancelled when its handle is closing. -/
def statusAllowed (conn : UvTcp) (status : Int) : Bool :=
  !uvIsClosing conn || status == uvEcanceled

def isClosingNow (conn : UvTcp) : Bool :=
  match conn.state with
  | .closing _ => true
  | _ => false

theorem isClosingNow_iff (conn : UvTcp) :
    isClosingNow conn = true ↔ ∃ notify, conn.state = .closing notify := by
  unfold isClosingNow
  split <;> simp_all

/-- A handle has no request left when its close callback runs, and no timer runs once the
walk has closed the timers. -/
def enabled (info : MainInfo) : Event → Bool
  | .tick _ => !info.walked
  | .release _ => !info.walked
  | .workInit n => n < info.nodes && (info.heap n).workReq.stage == .queued
  | .workConnect n r => n < info.nodes && (info.heap n).workReq.stage == .initialised && r ≤ 0
  | .workReturn n => n < info.nodes && (info.heap n).workReq.stage == .connected
  | .afterWork n => n < info.nodes && (info.heap n).workReq.stage == .returned
  | .connected n status _ written =>
      n < info.nodes && (info.heap n).connectReq.submitted.contains .connect &&
        statusAllowed (info.heap n).conn status && written ≤ 0
  | .readNone n => n < info.nodes && isReading (info.heap n).conn
  | .readError n nread => n < info.nodes && isReading (info.heap n).conn && nread < 0
  | .readData n received =>
      n < info.nodes && isReading (info.heap n).conn &&
        0 < received.length && received.length ≤ allocCb.len
  | .written n status =>
      n < info.nodes && (info.heap n).connectReq.submitted.contains .write &&
        statusAllowed (info.heap n).conn status
  | .readRetired n =>
      n < info.nodes && isClosingNow (info.heap n).conn && (info.heap n).conn.readPending
  | .closed n _ =>
      n < info.nodes && isClosingNow (info.heap n).conn && !(info.heap n).conn.readPending &&
        (info.heap n).connectReq.submitted.isEmpty
  | .walk => !info.walked

def setStage (info : MainInfo) (n : Nat) (stage : WorkStage) : MainInfo :=
  let task := info.heap n
  info.setTask n { task with workReq := { task.workReq with stage := stage } }

/-- A handle is on the loop from `uv_tcp_init` until it is closed. -/
def onLoop (conn : UvTcp) : Bool :=
  match conn.state with
  | .opened => true
  | .closing _ => true
  | _ => false

def closeWalkCb (info : MainInfo) (handle : Nat) : MainInfo :=
  if uvIsClosing (info.heap handle).conn then info else uvClose info handle false

def uvWalk (walkCb : MainInfo → Nat → MainInfo) (info : MainInfo) : MainInfo :=
  (List.range info.nodes).foldl
    (fun info n => if onLoop (info.heap n).conn then walkCb info n else info) info

/-- The walk of `close_loop`, which also closes the timers and the signal handles. The
`uv_run` after it is the rest of the run. -/
def closeLoop (info : MainInfo) : MainInfo := { uvWalk closeWalkCb info with walked := true }

section
variable (platform : Platform) (config : MainConfig)

def exec (info : MainInfo) : Event → Option MainInfo
  | .tick hosts => timerCb config (initCallbacks platform.sizeBits config) info hosts
  | .release now => timerReleaseCb info now
  | .workInit n => (workUvCbInit info n).map fun info => setStage info n .initialised
  | .workConnect n r => (workUvCbConnect info n r).map fun info => setStage info n .connected
  | .workReturn n => some (setStage info n .returned)
  | .afterWork n => some (afterWorkCb (setStage info n .delivered))
  | .connected n status now written =>
      onConnect (initCallbacks platform.sizeBits config)
        (info.setTask n (complete (info.heap n) .connect)) n status now written
  | .readNone n => readCb (initCallbacks platform.sizeBits config) info n 0 allocCb
  | .readError n nread => readCb (initCallbacks platform.sizeBits config) info n nread allocCb
  | .readData n received =>
      readCb (initCallbacks platform.sizeBits config) info n received.length (allocCb.fill received)
  | .written n status =>
      writeCb (initCallbacks platform.sizeBits config)
        (info.setTask n (complete (info.heap n) .write)) n status
  | .readRetired n =>
      let task := info.heap n
      some (info.setTask n { task with conn := retireRead task.conn })
  | .closed n now =>
      let task := info.heap n
      let closed := info.setTask n { task with conn := { task.conn with state := .closed } }
      match task.conn.state with
      | .closing true => closeCb (initCallbacks platform.sizeBits config) closed n now
      | _ => some closed
  | .walk => some (closeLoop info)

def step (info : MainInfo) (event : Event) : Option MainInfo :=
  if enabled info event then exec platform config info event else none

/-- `main` up to its `uv_run`: the extra call of `timer_cb` when `flood_begin` is set. -/
def begin (hosts : Nat → Option UInt32) : Option MainInfo :=
  let info := MainInfo.initial
  if config.floodBegin then
    if info.tasks.count < config.taskMinRunning.toNat then
      timerCb config (initCallbacks platform.sizeBits config) info hosts
    else some info
  else some info

/-- A whole session: `main` up to its `uv_run`, then the events in order. -/
def session (hosts : Nat → Option UInt32) (events : List Event) : Option MainInfo :=
  (begin platform config hosts).bind fun info => run (step platform config) info events

def Reachable (info : MainInfo) : Prop :=
  ∃ hosts events, session platform config hosts events = some info

end

/-- The first task is posted, and its request is sent. -/
def requestSent : List Event := [.tick fun _ => some 0, .workInit 0, .workConnect 0 0, .connected 0 0 0 0]

/-- What comes of a task whose connection is refused, at the time `now`, up to its closed handle. -/
def refusal (now : Int) (n : Nat) : List Event :=
  [.workInit n, .workConnect n 0, .workReturn n, .afterWork n, .connected n uvEconnreset now 0, .closed n now]

end EasyStressTest.Loop
