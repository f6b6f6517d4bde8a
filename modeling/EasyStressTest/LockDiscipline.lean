import EasyStressTest.Holding

/-!
What `m_mutex` is to a worker. `uv_cond_wait` is for a thread that has the mutex, and it returns
with the mutex. `ThreadProc` calls it without, and when it has returned goes on as if it had not
got anything: to lock the mutex once more, or to leave with it.
-/

namespace EasyStressTest.LockDiscipline
open Execution Threads ThreadPool PoolStep Holding

/-! The hold counts that the calls of a worker need. -/

def Waits (pc : WorkerPc) (count : Nat) : Prop := pc = .wait → count = 1

def Locks (pc : WorkerPc) (count : Nat) : Prop := pc = .lock → count = 0

def Works (pc : WorkerPc) (count : Nat) : Prop := ∀ worker, pc = .work worker → count = 0

def Leaves (pc : WorkerPc) (count : Nat) : Prop := left pc = true → count = 0

structure Lawful (pc : WorkerPc) (count : Nat) : Prop where
  waits : Waits pc count
  locks : Locks pc count
  works : Works pc count
  leaves : Leaves pc count

/-- In every order of the steps. -/
def Always (kind : MutexKind) (threadnum : Int) (At : WorkerPc → Nat → Prop) : Prop :=
  ∀ events pool, run (step kind) (Pool.create threadnum) events = some pool → Everywhere At pool

/-- A worker that looks for a task finds one, or finds that it was told to exit. -/
def Busy (pool : Pool) : Event → Prop
  | .worker p => (pool.node p).pc = .test → pool.tasks ≠ [] ∨ (pool.node p).isExit = true
  | _ => True

instance (pool : Pool) (event : Event) : Decidable (Busy pool event) :=
  match event with
  | .worker _ => inferInstanceAs (Decidable (_ → _ ∨ _))
  | .workerSignal _ _ => isTrue trivial
  | .callerSignal _ _ => isTrue trivial
  | .spurious _ => isTrue trivial
  | .addTask _ _ => isTrue trivial
  | .delThread _ _ => isTrue trivial
  | .waitAll _ => isTrue trivial
  | .caller _ => isTrue trivial

section
variable {kind : MutexKind} {pool next : Pool} {p : Nat} {event : Event}

theorem Busy.not_idle (busy : Busy pool event) (here : (pool.node p).pc = .test) : ¬Finds pool p event .wait := by
  rintro ⟨same, empty, clear⟩
  subst same
  rcases busy here with some_task | exits
  · exact some_task empty
  · rw [clear] at exits
    cases exits

theorem idle_of_not_busy (idle : ¬Busy pool event) :
    ∃ p, event = .worker p ∧ (pool.node p).pc = .test ∧ pool.tasks = [] ∧ (pool.node p).isExit = false := by
  cases event with
  | worker p =>
    simp only [Busy, Classical.not_imp, not_or, not_not, Bool.not_eq_true] at idle
    exact ⟨p, rfl, idle⟩
  | _ => exact absurd trivial idle

/-! Workers that never sleep. -/

/-- A worker that has not slept holds the mutex from its lock to its unlock. -/
def Awake : WorkerPc → Nat → Prop
  | .wait, _ => False
  | .asleep, _ => False
  | .woken, _ => False
  | .pop, count => count ≤ 1
  | .unlock _, count => count ≤ 1
  | _, count => count = 0

theorem Awake.lawful {pc : WorkerPc} {count : Nat} (awake : Awake pc count) : Lawful pc count where
  waits := by
    intro waits
    subst waits
    exact awake.elim
  locks := by
    intro locks
    subst locks
    exact awake
  works := by
    intro worker works
    subst works
    exact awake
  leaves := by
    intro leaves
    cases pc with
    | exitSignal => exact awake
    | finished => exact awake
    | _ => cases leaves

theorem Awake.turn {finds : WorkerPc → Prop} {pc pc' : WorkerPc} {count count' : Nat} (awake : Awake pc count)
    (busy : pc = .test → ¬finds .wait) (turn : Turn kind finds pc count pc' count') : Awake pc' count' := by
  cases turn with
  | others fewer => cases pc <;> simp only [Awake] at awake ⊢ <;> omega
  | woken => exact awake
  | testWait found => exact absurd found (busy rfl)
  | testPass => exact awake
  | sleep => exact awake
  | reacquire => exact awake.elim
  | leave => exact awake
  | stay => exact awake
  | lock => exact Nat.le_of_eq (congrArg (· + 1) awake)
  | pop => exact awake
  | unlock => exact Nat.sub_eq_zero_of_le awake
  | work => exact awake
  | exitSignal => exact awake

theorem awake_step (awake : Everywhere Awake pool) (busy : Busy pool event)
    (taken : step kind pool event = some next) : Everywhere Awake next := by
  refine everywhere_step awake ?_ (step_transition taken)
  exact fun p _ pc count turn before => before.turn busy.not_idle turn

theorem idle_step (here : (pool.node p).pc = .test) (empty : pool.tasks = [])
    (clear : (pool.node p).isExit = false) (taken : step kind pool (.worker p) = some next) :
    p < pool.created ∧ next = pool.setPc p .wait := by
  by_cases below : p < pool.created
  · simp [step, below, workerStep, here, empty, clear] at taken
    exact ⟨below, taken.symm⟩
  · simp [step, below] at taken

/-- A worker with nothing to do calls `uv_cond_wait` without the mutex. -/
theorem idle_exposed (awake : Everywhere Awake pool) (idle : ¬Busy pool event)
    (taken : step kind pool event = some next) : ¬Everywhere Lawful next := by
  intro lawful
  obtain ⟨p, same, here, empty, clear⟩ := idle_of_not_busy idle
  subst same
  obtain ⟨below, waits⟩ := idle_step here empty clear taken
  subst waits
  have none : holds pool p = 0 := by
    have awake' := awake p below
    rw [here] at awake'
    exact awake'
  have once : holds pool p = 1 := (lawful p below).waits (by simp)
  rw [none] at once
  cases once

/-! What becomes of workers that sleep. -/

/-- A worker that finds nothing to do. -/
def rest : List Event := [.worker 0, .worker 0]

/-- A task is added, and its signal wakes the worker, which goes on to lock the mutex. -/
def wakeForTask (node : WorkerNode) : List Event :=
  [.addTask 0 node, .caller 0, .caller 0, .callerSignal 0 (some 0), .caller 0, .worker 0, .worker 0, .worker 0]

/-- The worker goes on to its task. -/
def takeTask : List Event := [.worker 0, .worker 0, .worker 0]

/-- The worker is told to exit. -/
def wakeForExit : List Event :=
  [.waitAll 0, .caller 0, .callerSignal 0 (some 0), .worker 0, .worker 0, .worker 0]

theorem waits_ran (kind : MutexKind) (n : Nat) :
    ∃ pool, run (step kind) (fresh (n + 1)) [.worker 0] = some pool ∧ ¬Everywhere Waits pool := by
  simp [run, step, workerStep, fresh, Pool.empty, Everywhere, Waits, holds]

/-- It has got the mutex from `uv_cond_wait` when it comes to lock it. -/
theorem wakeForTask_ran (kind : MutexKind) (node : WorkerNode) (n : Nat) :
    ∃ pool, run (step kind) (fresh (n + 1)) (rest ++ wakeForTask node) = some pool ∧
      pool.created = n + 1 ∧ (pool.node 0).pc = .lock ∧ pool.mutex = .held (.worker 0) 0 ∧
      pool.tasks = [node] := by
  simp [rest, wakeForTask, run, step, workerStep, callerStep, Pool.call, Pool.condSignal, Pool.Asleep,
    afterSignal, fresh, Pool.empty, Pool.setPc, Mutex.acquire, Mutex.release]

theorem locks_ran (kind : MutexKind) (node : WorkerNode) (n : Nat) :
    ∃ pool, run (step kind) (fresh (n + 1)) (rest ++ wakeForTask node) = some pool ∧
      ¬Everywhere Locks pool := by
  obtain ⟨pool, ran, created, here, held, _⟩ := wakeForTask_ran kind node n
  refine ⟨pool, ran, fun everywhere => ?_⟩
  have none := everywhere 0 (by omega) here
  rw [holds, held] at none
  cases none

/-- From there it goes on to its task only if it can lock the mutex twice, and unlocks it once. -/
theorem takeTask_ran {pool : Pool} {node : WorkerNode} (recursive : kind.recursive = true)
    (below : 0 < pool.created) (here : (pool.node 0).pc = .lock) (held : pool.mutex = .held (.worker 0) 0)
    (tasks : pool.tasks = [node]) :
    ∃ next, run (step kind) pool takeTask = some next ∧ ¬Everywhere Works next := by
  simp [takeTask, run, step, below, workerStep, here, held, Mutex.acquire, recursive, tasks, Mutex.release,
    Everywhere, Works, holds]

theorem works_ran (recursive : kind.recursive = true) (node : WorkerNode) (n : Nat) :
    ∃ pool, run (step kind) (fresh (n + 1)) (rest ++ wakeForTask node ++ takeTask) = some pool ∧
      ¬Everywhere Works pool := by
  obtain ⟨pool, ran, created, here, held, tasks⟩ := wakeForTask_ran kind node n
  obtain ⟨next, went, wrong⟩ := takeTask_ran recursive (by omega) here held tasks
  exact ⟨next, run_concat ran went, wrong⟩

theorem leaves_ran (kind : MutexKind) (n : Nat) :
    ∃ pool, run (step kind) (fresh (n + 1)) (rest ++ wakeForExit) = some pool ∧
      ¬Everywhere Leaves pool := by
  simp [rest, wakeForExit, run, step, workerStep, callerStep, Pool.call, Pool.condSignal, Pool.Asleep,
    afterSignal, fresh, Pool.empty, Pool.setPc, Pool.setExit, Mutex.acquire, Mutex.release, left,
    Everywhere, Leaves, holds]

/-- Without a worker there is no call. -/
theorem always_of_none {threadnum : Int} (none : threadnum ≤ 0) (At : WorkerPc → Nat → Prop) :
    Always kind threadnum At := by
  intro events pool ran p below
  rw [created_along ran] at below
  omega

theorem always_iff {At : WorkerPc → Nat → Prop} {threadnum : Int}
    (ran : ∀ n, ∃ events pool, run (step kind) (fresh (n + 1)) events = some pool ∧ ¬Everywhere At pool) :
    Always kind threadnum At ↔ threadnum ≤ 0 := by
  refine ⟨?_, fun none => always_of_none none At⟩
  intro always
  by_contra positive
  obtain ⟨n, size⟩ : ∃ n, threadnum.toNat = n + 1 := ⟨threadnum.toNat - 1, by omega⟩
  obtain ⟨events, pool, ran, wrong⟩ := ran n
  rw [← size, ← create_eq] at ran
  exact wrong (always events pool ran)

/-- With a mutex that is not recursive a worker holds it at most once, and has released it before
it runs a task. -/
def Single (pc : WorkerPc) (count : Nat) : Prop := count ≤ 1 ∧ Works pc count

theorem Single.turn {finds : WorkerPc → Prop} {pc pc' : WorkerPc} {count count' : Nat} (single : Single pc count)
    (plain : kind.recursive = false) (turn : Turn kind finds pc count pc' count') : Single pc' count' := by
  have first : count = 0 ∨ kind.recursive = true → count = 0 := by
    intro free
    rw [plain] at free
    exact free.resolve_right Bool.false_ne_true
  obtain ⟨few, works⟩ := single
  cases turn with
  | others fewer =>
    refine ⟨Nat.le_trans fewer few, fun worker here => ?_⟩
    have none := works worker here
    omega
  | sleep => exact ⟨by omega, nofun⟩
  | reacquire free =>
    have none := first free
    exact ⟨by omega, nofun⟩
  | lock free =>
    have none := first free
    exact ⟨by omega, nofun⟩
  | unlock worker => exact ⟨by omega, fun _ _ => by omega⟩
  | _ => exact ⟨few, nofun⟩

theorem always_works (plain : kind.recursive = false) (threadnum : Int) : Always kind threadnum Works := by
  intro events pool ran
  have kept : ∀ pool event next, Everywhere Single pool → step kind pool event = some next →
      Everywhere Single next :=
    fun _ _ _ single taken =>
      everywhere_step single (fun _ _ _ _ turn before => before.turn plain turn) (step_transition taken)
  have initially : Single .test 0 := ⟨Nat.zero_le 1, nofun⟩
  have single := run_preserves kept (everywhere_create initially threadnum) ran
  exact fun p below => (single p below).2

/-- Which of the calls of a pool of this size always have the hold count that they need. -/
theorem always_parts (kind : MutexKind) (threadnum : Int) :
    (Always kind threadnum Waits ↔ threadnum ≤ 0) ∧
      (Always kind threadnum Locks ↔ threadnum ≤ 0) ∧
      (Always kind threadnum Works ↔ threadnum ≤ 0 ∨ kind.recursive = false) ∧
      (Always kind threadnum Leaves ↔ threadnum ≤ 0) := by
  refine ⟨always_iff fun n => ⟨_, waits_ran kind n⟩, always_iff fun n => ⟨_, locks_ran kind ⟨1, 2⟩ n⟩, ?_,
    always_iff fun n => ⟨_, leaves_ran kind n⟩⟩
  cases recursive : kind.recursive with
  | false => exact iff_of_true (always_works recursive threadnum) (Or.inr rfl)
  | true =>
    rw [always_iff fun n => ⟨_, works_ran recursive ⟨1, 2⟩ n⟩]
    simp

theorem waits_without_mutex : ¬Always ⟨true, true⟩ 1 Lawful := by
  intro always
  obtain ⟨pool, ran, wrong⟩ := waits_ran ⟨true, true⟩ 0
  have started : Pool.create 1 = fresh (0 + 1) := create_eq 1
  rw [← started] at ran
  exact wrong fun p below => (always _ pool ran p below).waits

/-- Every pool that has a worker breaks the discipline in some order of steps, and a run of it does
so exactly when some worker finds nothing to do. -/
theorem lawful_iff (kind : MutexKind) (threadnum : Int) :
    (Always kind threadnum Lawful ↔ threadnum ≤ 0) ∧
      ∀ events pool, run (step kind) (Pool.create threadnum) events = some pool →
        (ReachesOnly (step kind) (Everywhere Lawful) (Pool.create threadnum) events ↔
          Along (step kind) Busy (Pool.create threadnum) events) := by
  apply And.intro
  · apply always_iff
    intro n
    obtain ⟨pool, ran, wrong⟩ := waits_ran kind n
    exact ⟨_, pool, ran, fun lawful => wrong fun p below => (lawful p below).waits⟩
  · intro events pool ran
    have initially : Everywhere Awake (Pool.create threadnum) := everywhere_create rfl threadnum
    refine reachesOnly_iff_along ?_ ?_ ?_ initially ran
    · exact fun _ awake p below => (awake p below).lawful
    · exact fun _ _ _ awake busy taken => awake_step awake busy taken
    · exact fun _ _ _ awake idle taken => idle_exposed awake idle taken

end

/-- A worker does one task and is deleted before it looks for another. -/
def occupied : List Event :=
  [.addTask 0 ⟨1, 2⟩, .caller 0, .caller 0, .callerSignal 0 none, .caller 0] ++ List.replicate 6 (.worker 0) ++
    [.delThread 1 1, .caller 1, .caller 1, .callerSignal 1 none, .worker 0, .worker 0, .workerSignal 0 none,
      .caller 1, .caller 1, .caller 1]

theorem lawful_iff_occupied :
    ∃ pool, run (step ⟨true, true⟩) (Pool.create 1) occupied = some pool ∧
      pool.completed = [⟨1, 2⟩] ∧ pool.deleted = [0] ∧
      ReachesOnly (step ⟨true, true⟩) (Everywhere Lawful) (Pool.create 1) occupied := by
  obtain ⟨pool, ran, completed, deleted, busy⟩ : ∃ pool,
      run (step ⟨true, true⟩) (Pool.create 1) occupied = some pool ∧ pool.completed = [⟨1, 2⟩] ∧
      pool.deleted = [0] ∧ Along (step ⟨true, true⟩) Busy (Pool.create 1) occupied :=
    ⟨_, rfl, rfl, rfl, by decide⟩
  exact ⟨pool, ran, completed, deleted, ((lawful_iff ⟨true, true⟩ 1).2 occupied pool ran).mpr busy⟩

end EasyStressTest.LockDiscipline
