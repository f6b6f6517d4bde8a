import EasyStressTest.Libuv
import EasyStressTest.Options

/-!
The callbacks of `task.cpp`, the built-in HTTP callbacks of `http_task.cpp`, and the two
timer callbacks of `Main.cpp`. A function fails (`none`) where the program would touch memory
that is not a task of `task_list` or reply data that was never constructed.
-/

namespace EasyStressTest.Callbacks
open Define HttpTask Options Tasks Libuv

/-- `tcp_task_callback`; a missing entry is NULL. `onInit` gets the answer of `gethostbyname`,
and `onConnectedSuccessful` the return code of the `uv_write` it makes. -/
structure TcpTaskCallback where
  onInit : Option (Option UInt32 → TcpTask → Int × TcpTask)
  onConnectedFailed : Option (MainInfo → Nat → Int → Option MainInfo)
  onConnectedSuccessful : Option (MainInfo → Nat → Int → Option MainInfo)
  onRecv : Option (MainInfo → Nat → UvBuf → Nat → Option MainInfo)
  onSendOk : Option (MainInfo → Nat → Option MainInfo)
  onSendError : Option (MainInfo → Nat → Int → Option MainInfo)
  onClose : Option (MainInfo → Nat → Option MainInfo)

/-- `sizeof(read_buf)`. -/
def readBufSize : Nat := 1024

def allocCb : UvBuf := ⟨List.replicate readBufSize 0, readBufSize⟩

def closeCb (callbacks : TcpTaskCallback) (info : MainInfo) (handle : Nat) (now : Int) :
    Option MainInfo := do
  let ptask ← nodeOf (info.heap handle).conn.data
  let info := info.addTaskToBeDeleted ptask now
  match callbacks.onClose with
  | some onClose => onClose (info.act ptask (.callback .onClose)) ptask
  | none => some info

def readCb (callbacks : TcpTaskCallback) (info : MainInfo) (stream : Nat) (nread : Int)
    (buf : UvBuf) : Option MainInfo :=
  if nread = 0 then some info
  else do
    let ptask ← nodeOf (info.heap stream).conn.data
    if nread < 0 then
      let info := info.assert .readStatus (nread == uvEconnreset || nread == uvEof)
      some (uvClose info ptask true)
    else
      match callbacks.onRecv with
      | some onRecv => onRecv (info.act ptask (.callback .onRecv)) ptask buf nread.toNat
      | none => some info

def writeCb (callbacks : TcpTaskCallback) (info : MainInfo) (req : Nat) (status : Int) :
    Option MainInfo := do
  let ptask ← nodeOf (info.heap req).connectReq.data
  if status ≠ 0 then
    let info := info.assert .writeStatus (status == uvEconnreset || status == uvEof)
    let info ← match callbacks.onSendError with
      | some onSendError => onSendError (info.act ptask (.callback .onSendError)) ptask status
      | none => some info
    some (uvClose info ptask true)
  else
    match callbacks.onSendOk with
    | some onSendOk => onSendOk (info.act ptask (.callback .onSendOk)) ptask
    | none => some info

def doClose (info : MainInfo) (ptask : Nat) (releaseIt : Bool) : MainInfo :=
  let task := info.heap ptask
  let info := info.setTask ptask { task with conn := uvReadStop task.conn }
  let info := uvClose info ptask true
  info.setTask ptask { info.heap ptask with deleteImmediately := releaseIt }

def doRead (info : MainInfo) (ptask : Nat) : MainInfo × Int :=
  let task := info.heap ptask
  let (conn, r) := uvReadStart task.conn
  ((info.setTask ptask { task with conn := conn }).assert .readStarted (r == 0), r)

def doWrite (info : MainInfo) (ptask : Nat) (r : Int) : MainInfo × Int :=
  ((info.setTask ptask (submit (info.heap ptask) .write r)).assert .writeStarted (r == 0), r)

/-- `written` is the return code of the `uv_write` that the callback makes. -/
def onConnect (callbacks : TcpTaskCallback) (info : MainInfo) (req : Nat) (status now written : Int) :
    Option MainInfo := do
  let ptask ← nodeOf (info.heap req).connectReq.data
  if status ≠ 0 then
    let info ← match callbacks.onConnectedFailed with
      | some onConnectedFailed =>
          onConnectedFailed (info.act ptask (.callback .onConnectedFailed)) ptask status
      | none => some info
    if uvIsClosing (info.heap ptask).conn then some info
    else some ((uvClose info ptask false).addTaskToBeDeleted ptask now)
  else
    match callbacks.onConnectedSuccessful with
    | some onConnectedSuccessful =>
        onConnectedSuccessful (info.act ptask (.callback .onConnectedSuccessful)) ptask written
    | none => some (doRead info ptask).1

/-- `work_uv_cb` up to its `uv_tcp_init`. -/
def workUvCbInit (info : MainInfo) (req : Nat) : Option MainInfo := do
  let ptask ← nodeOf (info.heap req).workReq.data
  let task := info.heap ptask
  some (info.setTask ptask { task with conn := uvTcpInit task.conn })

/-- The `uv_tcp_connect` of `work_uv_cb`; its return code is stored in `r` and not looked at. -/
def workUvCbConnect (info : MainInfo) (req : Nat) (r : Int) : Option MainInfo := do
  let ptask ← nodeOf (info.heap req).workReq.data
  let info := info.setTask ptask (submit (info.heap ptask) .connect r)
  let task := info.heap req
  some (info.setTask req { task with workReq := { task.workReq with r := r } })

def afterWorkCb (info : MainInfo) : MainInfo := info

/-- `tcp_task_post` on the temporary of `timer_cb`. The log gives `on_init` to the node that the
temporary is copied to. -/
def tcpTaskPost (callbacks : TcpTaskCallback) (info : MainInfo) (host : Option UInt32) :
    Option (MainInfo × Int) :=
  let (r, pttask) := match callbacks.onInit with
    | some onInit => onInit host TcpTask.zero
    | none => (0, TcpTask.zero)
  if r < 0 then some (info, -1)
  else do
    let (info, added) := info.add pttask
    let ptask ← added
    let info := if callbacks.onInit.isSome then info.act ptask (.callback .onInit) else info
    let task := info.heap ptask
    let info := info.setTask ptask { task with
      workReq := { task.workReq with data := some (.node ptask), stage := .queued }
      connectReq := { task.connectReq with data := some (.node ptask) }
      conn := { task.conn with data := some (.node ptask) } }
    let r := uvQueueWork true
    some ((info.act ptask .queued).assert .workQueued (r == 0), 0)

def timerReleaseCb (info : MainInfo) (now : Int) : Option MainInfo := info.deleteTaskToBeDeleted now

/-- `timer_cb`; `hosts i` is what `gethostbyname` answers in the i-th turn of the loop. -/
def timerCb (config : MainConfig) (callbacks : TcpTaskCallback) (info : MainInfo)
    (hosts : Nat → Option UInt32) : Option MainInfo :=
  if info.tasks.count < config.taskMinRunning.toNat then
    (List.range config.taskAddOnce.toNat).foldlM (fun info i => do
      let (info, r) ← tcpTaskPost callbacks info (hosts i)
      some (info.assert .timerPosted (r ≥ 0))) info
  else some info

/-! `http_task.cpp`. -/

/-- `htons(80)`, and `AF_INET` as the family. -/
def httpOnInit (phost : Option UInt32) (task : TcpTask) : Int × TcpTask :=
  match phost with
  | none => (-1, task)
  | some address => (0, { task with addr := ⟨2, 0x5000, address⟩ })

def httpOnConnectedFailed (info : MainInfo) (_ptask : Nat) (_error : Int) : Option MainInfo :=
  some info

def httpOnConnectedSuccessful (info : MainInfo) (ptask : Nat) (written : Int) : Option MainInfo :=
  let (info, ret) := doWrite info ptask written
  let info := info.assert .writeStarted (ret == 0)
  let (info, ret) := doRead info ptask
  let info := info.assert .readStarted (ret == 0)
  some (info.setTask ptask { info.heap ptask with reversed := some HttpData.fresh })

def httpOnRecv (sizeBits : Nat) (info : MainInfo) (ptask : Nat) (buf : UvBuf) (n : Nat) :
    Option MainInfo := do
  let task := info.heap ptask
  let httpData ← task.reversed
  let (httpData, finished) := httpData.onRecv sizeBits buf.base n
  let info := info.setTask ptask { task with reversed := some httpData }
  if finished then some (doClose info ptask true)
  else some info

def httpOnSendOk (info : MainInfo) (_ptask : Nat) : Option MainInfo := some info

def httpOnSendError (info : MainInfo) (_ptask : Nat) (_error : Int) : Option MainInfo := some info

/-- Prints `total_len`. -/
def httpOnClose (info : MainInfo) (ptask : Nat) : Option MainInfo := do
  let _ ← (info.heap ptask).reversed
  some info

def httpCallbacks (sizeBits : Nat) : TcpTaskCallback where
  onInit := some httpOnInit
  onConnectedFailed := some httpOnConnectedFailed
  onConnectedSuccessful := some httpOnConnectedSuccessful
  onRecv := some (httpOnRecv sizeBits)
  onSendOk := some httpOnSendOk
  onSendError := some httpOnSendError
  onClose := some httpOnClose

/-- The zeroed table of `_main_info`. -/
def noCallbacks : TcpTaskCallback := ⟨none, none, none, none, none, none, none⟩

/-- Whether `init` installs the built-in callbacks. With a script it installs none. -/
def builtin (config : MainConfig) : Bool := config.scriptFile.isEmpty || config.libpath.isEmpty

def initCallbacks (sizeBits : Nat) (config : MainConfig) : TcpTaskCallback :=
  if builtin config then httpCallbacks sizeBits else noCallbacks

end EasyStressTest.Callbacks
