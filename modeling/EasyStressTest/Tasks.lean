import Mathlib.Data.List.AList
import EasyStressTest.HttpTask

/-!
The data of `task.h` and `StressTest.h`, and the task store `CTasks`. The nodes of
`task_list` have stable addresses: the n-th node that `Add` creates is node n, and its
memory is `heap n` also after it was erased, so that a late use of it can be seen.
-/

namespace EasyStressTest.Tasks
open Define HttpTask

/-- A `struct tcp_task *`: the temporary of `timer_cb`, or a node of `task_list`. -/
inductive TaskPtr where
  | temp
  | node (n : Nat)
  deriving DecidableEq, Repr

/-- A handle in libuv. While it is closing, `notify` tells whether its close callback is
`close_cb` or NULL. -/
inductive HandleState where
  | none
  | opened
  | closing (notify : Bool)
  | closed
  deriving DecidableEq, Repr

/-- `uv_tcp_t`. A read request is pending from `uv_read_start` until libuv retires it. -/
structure UvTcp where
  data : Option TaskPtr
  state : HandleState
  reading : Bool
  readPending : Bool
  reqsPending : Nat
  activecnt : Int
  deriving DecidableEq, Repr

inductive ReqKind where
  | connect
  | write
  deriving DecidableEq, Repr

/-- `connect_req`, which `do_write` submits again as a write request. -/
structure UvConnect where
  data : Option TaskPtr
  submitted : List ReqKind
  deriving DecidableEq, Repr

/-- How far the work request is: waiting for a worker, inside `work_uv_cb` before or after
its `uv_tcp_connect`, returned, or completed by `after_work_cb`. -/
inductive WorkStage where
  | idle
  | queued
  | initialised
  | connected
  | returned
  | delivered
  deriving DecidableEq, Repr

/-- `work_req`, with the local `r` of `work_uv_cb`. -/
structure UvWork where
  data : Option TaskPtr
  stage : WorkStage
  r : Int
  deriving DecidableEq, Repr

structure SockaddrIn where
  sinFamily : UInt16
  sinPort : UInt16
  sinAddr : UInt32
  deriving DecidableEq, Repr

structure TcpTask where
  conn : UvTcp
  connectReq : UvConnect
  workReq : UvWork
  id : UInt64
  addr : SockaddrIn
  deleteImmediately : Bool
  reversed : Option HttpData
  deriving DecidableEq, Repr

/-- `struct tcp_task task = {0}`. -/
def TcpTask.zero : TcpTask where
  conn := ⟨none, .none, false, false, 0, 0⟩
  connectReq := ⟨none, []⟩
  workReq := ⟨none, .idle, 0⟩
  id := 0
  addr := ⟨0, 0, 0⟩
  deleteImmediately := false
  reversed := none

structure DeleteNode where
  ptask : Nat
  timeDeleted : Int
  deriving DecidableEq, Repr

structure CTasks where
  taskList : AList fun _ : UInt64 => Nat
  toDeleteTaskList : List DeleteNode
  curId : UInt64

/-- The node stored under a key. -/
def CTasks.find (tasks : CTasks) (id : UInt64) : Option Nat := tasks.taskList.lookup id

def CTasks.count (tasks : CTasks) : Nat := tasks.taskList.entries.length

inductive Callback where
  | onInit
  | onConnectedFailed
  | onConnectedSuccessful
  | onRecv
  | onSendOk
  | onSendError
  | onClose
  deriving DecidableEq, Repr

/-- What the program does that the rest of the world can see. -/
inductive Act where
  | added (id : UInt64)
  | queued
  | callback (name : Callback)
  | close (already : Bool)
  | erased (id : UInt64)
  deriving DecidableEq, Repr

/-- An ASSERT whose expression depends on the environment or on the program's state. -/
inductive Assertion where
  | timerPosted
  | workQueued
  | taskInserted
  | readStatus
  | writeStatus
  | readStarted
  | writeStarted
  deriving DecidableEq, Repr

/-- `main_info` together with libuv's loop. `log` is the history of acts, each with the node
it is about, and `failed` the assertions that a debug build would have stopped at. -/
structure MainInfo where
  tasks : CTasks
  heap : Nat → TcpTask
  nodes : Nat
  walked : Bool
  log : List (Nat × Act)
  failed : List Assertion

def MainInfo.initial : MainInfo where
  tasks := ⟨∅, [], 0⟩
  heap := fun _ => TcpTask.zero
  nodes := 0
  walked := false
  log := []
  failed := []

def MainInfo.setTask (info : MainInfo) (n : Nat) (task : TcpTask) : MainInfo :=
  { info with heap := fun m => if m = n then task else info.heap m }

def MainInfo.act (info : MainInfo) (n : Nat) (act : Act) : MainInfo :=
  { info with log := info.log ++ [(n, act)] }

/-- `ASSERT`, which a release build compiles out. -/
def MainInfo.assert (info : MainInfo) (assertion : Assertion) (expr : Bool) : MainInfo :=
  if expr then info else { info with failed := info.failed ++ [assertion] }

/-- A pointer that the program dereferences as a task of `task_list`. -/
def nodeOf : Option TaskPtr → Option Nat
  | some (.node n) => some n
  | _ => none

/-! The store. -/

/-- `CTasks::Add`; the second component is NULL when the key is taken. -/
def MainInfo.add (info : MainInfo) (task : TcpTask) : MainInfo × Option Nat :=
  let curId := info.tasks.curId + 1
  if curId ∈ info.tasks.taskList then
    ({ info with tasks := { info.tasks with curId := curId } }.assert .taskInserted false, none)
  else
    let n := info.nodes
    let inserted : MainInfo :=
      { info with
        tasks := { info.tasks with curId := curId, taskList := info.tasks.taskList.insert curId n }
        nodes := n + 1 }
    ((inserted.setTask n { task with id := curId }).act n (.added curId), some n)

def MainInfo.addTaskToBeDeleted (info : MainInfo) (ptask : Nat) (now : Int) : MainInfo :=
  { info with
    tasks := { info.tasks with
      toDeleteTaskList := info.tasks.toDeleteTaskList ++ [⟨ptask, now⟩] } }

def uvIsClosing (conn : UvTcp) : Bool :=
  match conn.state with
  | .closing _ => true
  | .closed => true
  | _ => false

theorem uvIsClosing_eq_false (conn : UvTcp) :
    uvIsClosing conn = false ↔ conn.state = .none ∨ conn.state = .opened := by
  unfold uvIsClosing
  split <;> simp_all
  cases state : conn.state <;> simp_all

theorem uvIsClosing_eq_true (conn : UvTcp) :
    uvIsClosing conn = true ↔ (∃ notify, conn.state = .closing notify) ∨ conn.state = .closed := by
  unfold uvIsClosing
  split <;> simp_all

theorem not_opened_of_closing {conn : UvTcp} (closing : uvIsClosing conn = true) :
    conn.state ≠ .opened := by
  intro opened
  simp [uvIsClosing, opened] at closing

/-- The test of the sweep on the task of an entry. -/
def releasable (task : TcpTask) (timeDeleted t : Int) : Bool :=
  (task.deleteImmediately || t - timeDeleted > timeoutForRelease) &&
    uvIsClosing task.conn && task.conn.reqsPending == 0 && task.conn.activecnt == 0

/-- One erase of the sweep: the task by its id, and the entry at the iterator. -/
def MainInfo.eraseAt (info : MainInfo) (piter : Nat) (node : DeleteNode) : MainInfo :=
  let id := (info.heap node.ptask).id
  { info with
    tasks := { info.tasks with
      taskList := info.tasks.taskList.erase id
      toDeleteTaskList := info.tasks.toDeleteTaskList.eraseIdx piter } }.act node.ptask (.erased id)

/-- The loop of the sweep with `left` turns before `i` reaches `count`. It fails where the
iterator would be dereferenced at `end()`. -/
def sweepLoop (t : Int) : (left piter : Nat) → MainInfo → Option MainInfo
  | 0, _, info => some info
  | left + 1, piter, info =>
      if piter = info.tasks.toDeleteTaskList.length then some info
      else do
        let node ← info.tasks.toDeleteTaskList[piter]?
        if releasable (info.heap node.ptask) node.timeDeleted t then
          sweepLoop t left piter (info.eraseAt piter node)
        else some info

/-- `CTasks::DeleteTask_ToBeDeleted` at the time `t`. -/
def MainInfo.deleteTaskToBeDeleted (info : MainInfo) (t : Int) : Option MainInfo :=
  if info.tasks.toDeleteTaskList.length > 0 then sweepLoop t checkDeleteCount 0 info
  else some info

end EasyStressTest.Tasks
