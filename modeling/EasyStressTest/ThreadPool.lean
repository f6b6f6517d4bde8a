import Mathlib.Tactic.Simps.Basic
import EasyStressTest.Execution
import EasyStressTest.Threads

/-!
`CThreadPool` of `threadpool.h`: any number of worker threads in `ThreadProc` and any number of
callers of `AddTask`, `DelThread` and `WaitAll`, which take their steps in any order. A step
that has no defined behaviour is `none`: to pop an empty list, or to use a deleted node.
-/

namespace EasyStressTest.ThreadPool
open Execution Threads

/-- `WORKER_NODE`: the addresses of a function and of its context. -/
structure WorkerNode where
  worker : Nat
  context : Nat
  deriving DecidableEq, Repr

/-- The next step of a thread in `ThreadProc`, with its local `worker` once it is set. -/
inductive WorkerPc where
  | test
  | wait
  | asleep
  | woken
  | exitTest
  | exitSignal
  | lock
  | pop
  | unlock (worker : WorkerNode)
  | work (worker : WorkerNode)
  | finished
  deriving DecidableEq, Repr

/-- `THREAD_NODE`, with what its thread does next. -/
structure ThreadNode where
  pc : WorkerPc
  isExit : Bool
  deriving DecidableEq, Repr

/-- The next step of a thread that uses the pool. `left` counts the turns of the loop of
`DelThread(int)` that are still to come. -/
inductive CallerPc where
  | idle
  | addLock (node : WorkerNode)
  | addPush (node : WorkerNode)
  | addSignal
  | addUnlock
  | delTest (left : Nat)
  | delFlag (pnode left : Nat)
  | delSignal (pnode left : Nat)
  | delJoin (pnode left : Nat)
  | delDelete (pnode left : Nat)
  | waitFlag (i : Nat)
  | waitSignal (i : Nat)
  | waitJoin (i : Nat)
  deriving DecidableEq, Repr

inductive Thread where
  | worker (pnode : Nat)
  | caller (c : Nat)
  deriving DecidableEq, Repr

/-- The pool; node p is the p-th `THREAD_NODE` that was created. `added`, `taken` and `completed`
are the histories of `AddTask`, of the pops and of the worker functions that returned. -/
structure Pool where
  threads : List Nat
  node : Nat → ThreadNode
  created : Nat
  joined : List Nat
  deleted : List Nat
  mutex : Mutex Thread
  tasks : List WorkerNode
  callers : Nat → CallerPc
  added : List WorkerNode
  taken : List WorkerNode
  completed : List WorkerNode

def Pool.empty : Pool where
  threads := []
  node := fun _ => ⟨.test, false⟩
  created := 0
  joined := []
  deleted := []
  mutex := .free
  tasks := []
  callers := fun _ => .idle
  added := []
  taken := []
  completed := []

/-- One turn of the loop of `AddThread`; the new thread is about to enter `ThreadProc`. -/
def Pool.newThread (pool : Pool) : Pool :=
  { pool with
    node := Function.update pool.node pool.created ⟨.test, false⟩
    threads := pool.threads ++ [pool.created]
    created := pool.created + 1 }

def Pool.addThread (pool : Pool) (threadnum : Int) : Pool :=
  Nat.repeat Pool.newThread threadnum.toNat pool

/-- The constructor. -/
def Pool.create (threadnum : Int) : Pool := Pool.empty.addThread threadnum

@[simps threads created joined deleted mutex tasks callers added taken completed]
def Pool.setPc (pool : Pool) (p : Nat) (pc : WorkerPc) : Pool :=
  { pool with node := Function.update pool.node p { pool.node p with pc := pc } }

@[simps threads created joined deleted mutex tasks callers added taken completed]
def Pool.setExit (pool : Pool) (p : Nat) : Pool :=
  { pool with node := Function.update pool.node p { pool.node p with isExit := true } }

@[simps threads node created joined deleted mutex tasks added taken completed]
def Pool.setCaller (pool : Pool) (c : Nat) (pc : CallerPc) : Pool :=
  { pool with callers := Function.update pool.callers c pc }

def Pool.Asleep (pool : Pool) (p : Nat) : Prop := p < pool.created ∧ (pool.node p).pc = .asleep

instance (pool : Pool) (p : Nat) : Decidable (pool.Asleep p) := inferInstanceAs (Decidable (_ ∧ _))

/-- `uv_cond_signal` wakes one sleeping thread, and is forgotten when none sleeps. -/
def Pool.condSignal (pool : Pool) (target : Option Nat) : Option Pool :=
  match target with
  | some q => if pool.Asleep q then some (pool.setPc q .woken) else none
  | none => if ∀ q < pool.created, ¬pool.Asleep q then some pool else none

section
variable (kind : MutexKind)

/-- One step of `ThreadProc` other than its `uv_cond_signal`. -/
def workerStep (pool : Pool) (p : Nat) : Option Pool :=
  match (pool.node p).pc with
  | .test =>
      if pool.tasks.length = 0 ∧ !(pool.node p).isExit then some (pool.setPc p .wait)
      else some (pool.setPc p .exitTest)
  | .wait => some ({ pool with mutex := pool.mutex.release kind (.worker p) }.setPc p .asleep)
  | .asleep => none
  | .woken =>
      (pool.mutex.acquire kind (.worker p)).map fun mutex => { pool with mutex := mutex }.setPc p .test
  | .exitTest => if (pool.node p).isExit then some (pool.setPc p .exitSignal) else some (pool.setPc p .lock)
  | .exitSignal => none
  | .lock =>
      (pool.mutex.acquire kind (.worker p)).map fun mutex => { pool with mutex := mutex }.setPc p .pop
  | .pop =>
      match pool.tasks with
      | [] => none
      | worker :: rest =>
          some ({ pool with tasks := rest, taken := pool.taken ++ [worker] }.setPc p (.unlock worker))
  | .unlock worker =>
      some ({ pool with mutex := pool.mutex.release kind (.worker p) }.setPc p (.work worker))
  | .work worker => some ({ pool with completed := pool.completed ++ [worker] }.setPc p .test)
  | .finished => none

/-- `join` returns once the thread has finished; a thread that was joined is not joinable. -/
def Pool.join (pool : Pool) (p : Nat) : Option Pool :=
  if p ∈ pool.deleted then none
  else if p ∈ pool.joined then some pool
  else if (pool.node p).pc = .finished then some { pool with joined := p :: pool.joined }
  else none

/-- One step of a caller other than a `uv_cond_signal`. -/
def callerStep (pool : Pool) (c : Nat) : Option Pool :=
  match pool.callers c with
  | .idle => none
  | .addLock node =>
      (pool.mutex.acquire kind (.caller c)).map fun mutex =>
        { pool with mutex := mutex }.setCaller c (.addPush node)
  | .addPush node =>
      some ({ pool with tasks := pool.tasks ++ [node], added := pool.added ++ [node] }.setCaller c
        .addSignal)
  | .addSignal => none
  | .addUnlock =>
      some ({ pool with mutex := pool.mutex.release kind (.caller c) }.setCaller c .idle)
  | .delTest 0 => some (pool.setCaller c .idle)
  | .delTest (left + 1) =>
      match pool.threads.getLast? with
      | some pnode => some (pool.setCaller c (.delFlag pnode left))
      | none => some (pool.setCaller c (.delTest left))
  | .delFlag pnode left =>
      if pnode ∈ pool.deleted then none
      else some ((pool.setExit pnode).setCaller c (.delSignal pnode left))
  | .delSignal _ _ => none
  | .delJoin pnode left => (pool.join pnode).map fun pool => pool.setCaller c (.delDelete pnode left)
  | .delDelete pnode left =>
      if pnode ∈ pool.deleted then none
      else some ({ pool with deleted := pnode :: pool.deleted, threads := pool.threads.dropLast }.setCaller c
        (.delTest left))
  | .waitFlag i =>
      match pool.threads[i]? with
      | some pnode =>
          if pnode ∈ pool.deleted then none
          else some ((pool.setExit pnode).setCaller c (.waitSignal i))
      | none => some (pool.setCaller c (.waitJoin 0))
  | .waitSignal _ => none
  | .waitJoin i =>
      match pool.threads[i]? with
      | some pnode => (pool.join pnode).map fun pool => pool.setCaller c (.waitJoin (i + 1))
      | none => some (pool.setCaller c .idle)

/-- What a caller does after the `uv_cond_signal` that it is at. -/
def afterSignal : CallerPc → Option CallerPc
  | .addSignal => some .addUnlock
  | .delSignal pnode left => some (.delJoin pnode left)
  | .waitSignal i => some (.waitFlag (i + 1))
  | _ => none

/-- A step of one thread. A signal comes with the thread that it wakes, and a sleeping thread
may wake without a signal. -/
inductive Event where
  | worker (p : Nat)
  | workerSignal (p : Nat) (target : Option Nat)
  | spurious (p : Nat)
  | addTask (c : Nat) (node : WorkerNode)
  | delThread (c : Nat) (threadnum : Int)
  | waitAll (c : Nat)
  | caller (c : Nat)
  | callerSignal (c : Nat) (target : Option Nat)
  deriving DecidableEq, Repr

def Pool.call (pool : Pool) (c : Nat) (pc : CallerPc) : Option Pool :=
  if pool.callers c = .idle then some (pool.setCaller c pc) else none

def step (pool : Pool) : Event → Option Pool
  | .worker p => if p < pool.created then workerStep kind pool p else none
  | .workerSignal p target =>
      if p < pool.created ∧ (pool.node p).pc = .exitSignal then
        (pool.condSignal target).map fun pool => pool.setPc p .finished
      else none
  | .spurious p => if pool.Asleep p then some (pool.setPc p .woken) else none
  | .addTask c node => pool.call c (.addLock node)
  | .delThread c threadnum => pool.call c (.delTest threadnum.toNat)
  | .waitAll c => pool.call c (.waitFlag 0)
  | .caller c => callerStep kind pool c
  | .callerSignal c target =>
      match afterSignal (pool.callers c) with
      | some pc => (pool.condSignal target).map fun pool => pool.setCaller c pc
      | none => none

end

end EasyStressTest.ThreadPool
