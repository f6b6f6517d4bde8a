import EasyStressTest.Tasks

/-!
The calls into libuv that a task's life consists of, by their documented behaviour. libuv is
not part of the repository: return codes that it chooses are arguments, and what it does of
its own accord (completions, close callbacks) are the events of `Loop`.
-/

namespace EasyStressTest.Libuv
open Define Tasks

/-- `uv_queue_work` refuses a request without a work callback, and no other. -/
def uvQueueWork (workCb : Bool) : Int := if workCb then 0 else uvEinval

/-- `uv_tcp_init` keeps the user's `data`. -/
@[simp] def uvTcpInit (conn : UvTcp) : UvTcp :=
  { data := conn.data, state := .opened, reading := false, readPending := false,
    reqsPending := 0, activecnt := 0 }

/-- A request is counted from its submission to its completion. -/
@[simp] def addRequest (conn : UvTcp) : UvTcp :=
  { conn with reqsPending := conn.reqsPending + 1, activecnt := conn.activecnt + 1 }

@[simp] def removeRequest (conn : UvTcp) : UvTcp :=
  { conn with reqsPending := conn.reqsPending - 1, activecnt := conn.activecnt - 1 }

/-- Submits `connect_req`; libuv accepts it when `r` is 0. -/
def submit (task : TcpTask) (kind : ReqKind) (r : Int) : TcpTask :=
  if r = 0 then
    { task with
      conn := addRequest task.conn
      connectReq := { task.connectReq with submitted := task.connectReq.submitted ++ [kind] } }
  else task

section
variable (task : TcpTask) (kind : ReqKind) (r : Int)

@[simp] theorem submit_state : (submit task kind r).conn.state = task.conn.state := by
  unfold submit; split <;> rfl

@[simp] theorem submit_reading : (submit task kind r).conn.reading = task.conn.reading := by
  unfold submit; split <;> rfl

@[simp] theorem submit_readPending : (submit task kind r).conn.readPending = task.conn.readPending := by
  unfold submit; split <;> rfl

@[simp] theorem submit_connData : (submit task kind r).conn.data = task.conn.data := by
  unfold submit; split <;> rfl

@[simp] theorem submit_data : (submit task kind r).connectReq.data = task.connectReq.data := by
  unfold submit; split <;> rfl

@[simp] theorem submit_workReq : (submit task kind r).workReq = task.workReq := by
  unfold submit; split <;> rfl

@[simp] theorem submit_id : (submit task kind r).id = task.id := by
  unfold submit; split <;> rfl

@[simp] theorem submit_reversed : (submit task kind r).reversed = task.reversed := by
  unfold submit; split <;> rfl

@[simp] theorem submit_deleteImmediately :
    (submit task kind r).deleteImmediately = task.deleteImmediately := by
  unfold submit; split <;> rfl

theorem submit_accepted (accepted : r = 0) : (submit task kind r).connectReq.submitted =
    task.connectReq.submitted ++ [kind] := by
  simp only [submit, if_pos accepted]

theorem submit_refused (refused : r ≠ 0) : submit task kind r = task := by
  simp only [submit, if_neg refused]

theorem submit_idle (idle : task.connectReq.submitted = []) :
    (submit task kind r).connectReq.submitted = [] ∨ (submit task kind r).connectReq.submitted = [kind] := by
  by_cases accepted : r = 0
  · right
    rw [submit_accepted _ _ _ accepted, idle]
    rfl
  · left
    rw [submit_refused _ _ _ accepted, idle]

end

/-- libuv completes a submission before it runs its callback. -/
@[simp] def complete (task : TcpTask) (kind : ReqKind) : TcpTask :=
  { task with
    conn := removeRequest task.conn
    connectReq := { task.connectReq with submitted := task.connectReq.submitted.erase kind } }

/-- `uv_read_start` succeeds on an open handle. -/
def uvReadStart (conn : UvTcp) : UvTcp × Int :=
  if uvIsClosing conn then (conn, uvEinval)
  else ({ addRequest conn with reading := true, readPending := true }, 0)

@[simp] def uvReadStop (conn : UvTcp) : UvTcp := { conn with reading := false }

/-- `uv_close` on an open handle; no read callback follows it. -/
@[simp] def uvCloseOpen (conn : UvTcp) (notify : Bool) : UvTcp :=
  { conn with state := .closing notify, reading := false }

/-- `uv_close` does nothing on a handle that is already closing. -/
def uvClose (info : MainInfo) (n : Nat) (notify : Bool) : MainInfo :=
  let task := info.heap n
  if uvIsClosing task.conn then info.act n (.close true)
  else (info.setTask n { task with conn := uvCloseOpen task.conn notify }).act n (.close false)

/-- The read request of a closing handle is retired. -/
@[simp] def retireRead (conn : UvTcp) : UvTcp := { removeRequest conn with readPending := false }

/-- `uv_buf_t`. -/
structure UvBuf where
  base : List UInt8
  len : Nat

/-- libuv stores the received bytes at the front of the buffer. -/
def UvBuf.fill (buf : UvBuf) (received : List UInt8) : UvBuf :=
  { buf with base := received ++ buf.base.drop received.length }

end EasyStressTest.Libuv
