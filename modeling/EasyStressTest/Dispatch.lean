import EasyStressTest.PoolStep

/-!
What `ThreadProc` takes from `m_tasks`. A worker tests the list before it locks the mutex, so two
workers can go on to pop the same last task. A single worker never does.
-/

namespace EasyStressTest.Dispatch
open Execution Threads ThreadPool PoolStep

/-- No worker pops an empty list, and what was taken and what is left is what was added. -/
def Dispatched (pool : Pool) : Prop :=
  (∀ p < pool.created, (pool.node p).pc = .pop → pool.tasks ≠ []) ∧
    pool.taken ++ pool.tasks = pool.added

instance (pool : Pool) : Decidable (Dispatched pool) := inferInstanceAs (Decidable (_ ∧ _))

/-- Past the exit test and before the pop. -/
def committed (node : ThreadNode) : Bool :=
  match node.pc with
  | .lock => true
  | .pop => true
  | _ => false

def claims (pool : Pool) : Nat := population pool.created pool.node committed

/-- A worker goes on to pop only when there are more tasks than workers that already do. -/
def Backed (pool : Pool) : Event → Prop
  | .worker p =>
      (pool.node p).pc = .exitTest → (pool.node p).isExit = false → claims pool < pool.tasks.length
  | _ => True

instance (pool : Pool) (event : Event) : Decidable (Backed pool event) :=
  match event with
  | .worker _ => inferInstanceAs (Decidable (_ → _ → _))
  | .workerSignal _ _ => isTrue trivial
  | .spurious _ => isTrue trivial
  | .addTask _ _ => isTrue trivial
  | .delThread _ _ => isTrue trivial
  | .waitAll _ => isTrue trivial
  | .caller _ => isTrue trivial
  | .callerSignal _ _ => isTrue trivial

/-- A step of `AddTask` or of `ThreadProc`. -/
def dispatches : Event → Bool
  | .delThread _ _ => false
  | .waitAll _ => false
  | _ => true

section
variable {kind : MutexKind} {pool next woken : Pool} {p q c : Nat} {target : Option Nat} {event : Event}

theorem claims_setPc (pool : Pool) (pc : WorkerPc) (below : p < pool.created) :
    claims (pool.setPc p pc) + (committed (pool.node p)).toNat =
      claims pool + (committed ⟨pc, false⟩).toNat :=
  population_setPc pool pc committed below

theorem claims_setExit (pool : Pool) (p : Nat) : claims (pool.setExit p) = claims pool :=
  population_setExit pool p fun _ => rfl

theorem claims_condSignal (signalled : pool.condSignal target = some woken) :
    claims woken = claims pool ∧ woken.tasks = pool.tasks ∧ woken.taken = pool.taken ∧
      woken.added = pool.added ∧ woken.created = pool.created ∧
      ∀ p, (pool.node p).pc = .exitSignal → (woken.node p).pc = .exitSignal := by
  rcases condSignal_eq_some.mp signalled with ⟨q, _, sleeps, same⟩ | ⟨_, _, same⟩
  · subst same
    have moved := claims_setPc pool .woken sleeps.1
    simp only [committed, sleeps.2, Bool.toNat_false, Nat.add_zero] at moved
    refine ⟨moved, rfl, rfl, rfl, rfl, ?_⟩
    intro p leaves
    by_cases self : p = q
    · subst self
      rw [sleeps.2] at leaves
      cases leaves
    · simp [self, leaves]
  · subst same
    exact ⟨rfl, rfl, rfl, rfl, rfl, fun _ leaves => leaves⟩

/-- Every worker that goes on to pop has a task of its own to come to. -/
structure Backing (pool : Pool) : Prop where
  covered : claims pool ≤ pool.tasks.length
  history : pool.taken ++ pool.tasks = pool.added

theorem Backing.dispatched (backing : Backing pool) : Dispatched pool := by
  refine ⟨?_, backing.history⟩
  intro p below pops empty
  have positive : 0 < claims pool := population_pos below (by simp [committed, pops])
  have covered := backing.covered
  rw [empty, List.length_nil] at covered
  omega

theorem Backing.same (backing : Backing pool) (claimed : claims next = claims pool)
    (tasks : next.tasks = pool.tasks) (taken : next.taken = pool.taken)
    (added : next.added = pool.added) : Backing next := by
  refine ⟨?_, ?_⟩
  · rw [claimed, tasks]
    exact backing.covered
  · rw [taken, tasks, added]
    exact backing.history

/-- A move of one worker that is neither a commitment nor a pop. -/
theorem Backing.moves {pc : WorkerPc} (backing : Backing pool) (below : p < pool.created)
    (level : committed (pool.node p) = committed ⟨pc, false⟩) : Backing (pool.setPc p pc) := by
  have moved := claims_setPc pool pc below
  rw [level] at moved
  exact backing.same (by omega) rfl rfl rfl

theorem Backing.step (backing : Backing pool) (backed : Backed pool event)
    (taken : Transition kind pool event next) : Backing next := by
  have covered := backing.covered
  have history := backing.history
  cases taken with
  | testWait below here => exact backing.moves below (by simp [committed, here])
  | testPass below here => exact backing.moves below (by simp [committed, here])
  | @sleep p below here =>
    have still : Backing { pool with mutex := pool.mutex.release kind (.worker p) } := ⟨covered, history⟩
    exact still.moves below (by simp [committed, here])
  | @reacquire p mutex below here =>
    have still : Backing { pool with mutex := mutex } := ⟨covered, history⟩
    exact still.moves below (by simp [committed, here])
  | leave below here => exact backing.moves below (by simp [committed, here])
  | @stay p below here clear =>
    have spare := backed here clear
    have moved := claims_setPc pool .lock below
    simp only [committed, here, Bool.toNat_false, Bool.toNat_true] at moved
    exact ⟨by simp only [Pool.setPc_tasks]; omega, history⟩
  | @lock p mutex below here =>
    have still : Backing { pool with mutex := mutex } := ⟨covered, history⟩
    exact still.moves below (by simp [committed, here])
  | @pop p worker rest below here front =>
    have moved := claims_setPc { pool with tasks := rest, taken := pool.taken ++ [worker] }
      (.unlock worker) below
    have before : claims { pool with tasks := rest, taken := pool.taken ++ [worker] } = claims pool := rfl
    simp only [committed, here, Bool.toNat_false, Bool.toNat_true, before] at moved
    rw [front, List.length_cons] at covered
    refine ⟨by simp only [Pool.setPc_tasks]; omega, ?_⟩
    rw [front] at history
    simpa using history
  | @unlock p worker below here =>
    have still : Backing { pool with mutex := pool.mutex.release kind (.worker p) } := ⟨covered, history⟩
    exact still.moves below (by simp [committed, here])
  | @work p worker below here =>
    have still : Backing { pool with completed := pool.completed ++ [worker] } := ⟨covered, history⟩
    exact still.moves below (by simp [committed, here])
  | @exitSignal p _ woken below here signalled =>
    obtain ⟨claimed, tasks, taken, added, created, leaves⟩ := claims_condSignal signalled
    have still : Backing woken := backing.same claimed tasks taken added
    exact still.moves (by rw [created]; exact below) (by simp [committed, leaves _ here])
  | spurious sleeps => exact backing.moves sleeps.1 (by simp [committed, sleeps.2])
  | addPush here =>
    refine ⟨?_, ?_⟩
    · change claims pool ≤ (pool.tasks ++ [_]).length
      rw [List.length_append]
      omega
    · change pool.taken ++ (pool.tasks ++ [_]) = pool.added ++ [_]
      rw [← List.append_assoc, history]
  | @delFlag c left pnode here =>
    exact backing.same (claims_setExit pool pnode) rfl rfl rfl
  | @waitFlag c i pnode here =>
    exact backing.same (claims_setExit pool pnode) rfl rfl rfl
  | callerSignal after signalled =>
    obtain ⟨claimed, tasks, taken, added, _⟩ := claims_condSignal signalled
    exact backing.same claimed tasks taken added
  | _ => exact ⟨covered, history⟩

theorem backing_create (threadnum : Int) : Backing (Pool.create threadnum) := by
  rw [create_eq]
  refine ⟨?_, rfl⟩
  apply Nat.le_of_eq
  exact population_eq_zero.mpr fun _ _ => rfl

theorem dispatched_of_backed {threadnum : Int} {events : List Event}
    (ran : run (step kind) (Pool.create threadnum) events = some pool)
    (backed : Along (step kind) Backed (Pool.create threadnum) events) : Dispatched pool := by
  have preserved : ∀ pool event next, Backing pool → Backed pool event →
      step kind pool event = some next → Backing next :=
    fun _ _ _ backing backed taken => backing.step backed (step_transition taken)
  exact (run_preserves_along preserved (backing_create threadnum) backed ran).dispatched

/-! One worker. -/

/-- A single worker that passed its test without being told to exit has a task. -/
structure Solo (pool : Pool) : Prop where
  alone : pool.created ≤ 1
  tested : ∀ p < pool.created, (pool.node p).pc = .exitTest → (pool.node p).isExit = false →
    pool.tasks ≠ []

theorem Solo.backed (solo : Solo pool) (event : Event) (taken : Transition kind pool event next) :
    Backed pool event := by
  cases event with
  | worker p =>
    intro here clear
    have below : p < pool.created := by cases taken <;> assumption
    have nobody : claims pool = 0 := by
      apply population_eq_zero.mpr
      intro q inside
      have same : q = p := by
        have alone := solo.alone
        omega
      rw [same]
      simp [committed, here]
    rw [nobody]
    exact List.length_pos_of_ne_nil (solo.tested p below here clear)
  | _ => trivial

/-- A move of the worker, to anywhere but its exit test. -/
theorem Solo.moves {pc : WorkerPc} (solo : Solo pool) (below : p < pool.created) (far : pc ≠ .exitTest)
    (moved : Moved p pc pool next) : Solo next := by
  refine ⟨by rw [moved.created]; exact solo.alone, ?_⟩
  intro q inside here
  rw [moved.created] at inside
  have same : q = p := by
    have alone := solo.alone
    omega
  rw [moved.node, same, pc_setPc, if_pos rfl] at here
  exact absurd here far

theorem Solo.condSignal (solo : Solo pool) (signalled : pool.condSignal target = some woken) :
    Solo woken := by
  rcases condSignal_eq_some.mp signalled with ⟨q, _, sleeps, same⟩ | ⟨_, _, same⟩
  · rw [same]
    exact solo.moves sleeps.1 (by simp) moved_setPc
  · rw [same]
    exact solo

theorem Solo.setExit (solo : Solo pool) (p : Nat) : Solo (pool.setExit p) := by
  refine ⟨solo.alone, ?_⟩
  intro q inside here clear
  rw [pc_setExit] at here
  rw [isExit_setExit] at clear
  split at clear
  · cases clear
  · exact solo.tested q inside here clear

theorem Solo.step (solo : Solo pool) (taken : Transition kind pool event next) : Solo next := by
  have alone := solo.alone
  have tested := solo.tested
  cases taken with
  | testWait below => exact solo.moves below (by simp) moved_setPc
  | @testPass p below here ready =>
    refine ⟨alone, ?_⟩
    intro q inside _ clear empty
    have same : q = p := by
      simp only [Pool.setPc_created] at inside
      omega
    rw [isExit_setPc, same, ready empty] at clear
    cases clear
  | sleep below => exact solo.moves below (by simp) moved_setPc
  | reacquire below => exact solo.moves below (by simp) moved_setPc
  | leave below => exact solo.moves below (by simp) moved_setPc
  | stay below => exact solo.moves below (by simp) moved_setPc
  | lock below => exact solo.moves below (by simp) moved_setPc
  | pop below => exact solo.moves below (by simp) moved_setPc
  | unlock below => exact solo.moves below (by simp) moved_setPc
  | work below => exact solo.moves below (by simp) moved_setPc
  | exitSignal below here signalled =>
    obtain ⟨_, _, _, _, created, _⟩ := claims_condSignal signalled
    exact (solo.condSignal signalled).moves (by rw [created]; exact below) (by simp) moved_setPc
  | spurious sleeps => exact solo.moves sleeps.1 (by simp) moved_setPc
  | addPush =>
    refine ⟨alone, ?_⟩
    intro q _ _ _ empty
    exact absurd empty (List.append_ne_nil_of_right_ne_nil _ (List.cons_ne_nil _ _))
  | @delFlag c left pnode =>
    obtain ⟨alone, tested⟩ := solo.setExit pnode
    exact ⟨alone, tested⟩
  | @waitFlag c i pnode =>
    obtain ⟨alone, tested⟩ := solo.setExit pnode
    exact ⟨alone, tested⟩
  | callerSignal after signalled =>
    obtain ⟨alone, tested⟩ := solo.condSignal signalled
    exact ⟨alone, tested⟩
  | _ => exact ⟨alone, tested⟩

theorem solo_create {threadnum : Int} (few : threadnum ≤ 1) : Solo (Pool.create threadnum) := by
  rw [create_eq]
  refine ⟨?_, ?_⟩
  · change threadnum.toNat ≤ 1
    omega
  · intro p _ here
    cases here

/-! Two workers. -/

/-- A call of `AddTask` that no worker notices. -/
def addOne (node : WorkerNode) : List Event :=
  [.addTask 0 node, .caller 0, .caller 0, .callerSignal 0 none, .caller 0]

/-- The pool after it. -/
def withTask (pool : Pool) (node : WorkerNode) : Pool :=
  { pool with
    tasks := pool.tasks ++ [node]
    added := pool.added ++ [node] }

theorem addOne_dispatches (node : WorkerNode) : ∀ event ∈ addOne node, dispatches event = true := by
  simp [addOne, dispatches]

theorem addOne_run (kind : MutexKind) {pool : Pool} (node : WorkerNode) (free : pool.mutex = .free)
    (idle : pool.callers 0 = .idle) (nobody : ∀ q < pool.created, ¬pool.Asleep q) :
    run (step kind) pool (addOne node) = some (withTask pool node) := by
  have silent : ∀ q < pool.created, ¬(pool.node q).pc = .asleep :=
    fun q below sleeps => nobody q below ⟨below, sleeps⟩
  have back : Function.update pool.callers 0 .idle = pool.callers := by
    rw [← idle]
    exact Function.update_eq_self 0 pool.callers
  simp [addOne, run, step, Pool.call, idle, callerStep, Pool.setCaller, Pool.condSignal, free,
    Mutex.acquire, Mutex.release, afterSignal, Pool.Asleep, if_pos silent, back,
    withTask]

theorem addOne_ran (kind : MutexKind) (threadnum : Int) (node : WorkerNode) :
    run (step kind) (Pool.create threadnum) (addOne node) = some (withTask (Pool.create threadnum) node) := by
  rw [create_eq]
  apply addOne_run kind node rfl rfl
  rintro q _ ⟨_, sleeps⟩
  cases sleeps

/-- Both workers find the task in the list, and the first takes it. -/
def race : List Event :=
  [.worker 0, .worker 1, .worker 0, .worker 1, .worker 0, .worker 0, .worker 0, .worker 1]

theorem race_ran (kind : MutexKind) (node : WorkerNode) {threadnum : Int} (many : 2 ≤ threadnum) :
    ∃ pool, run (step kind) (Pool.create threadnum) (addOne node ++ race) = some pool ∧
      ¬Dispatched pool := by
  obtain ⟨m, size⟩ : ∃ m, threadnum.toNat = m + 2 := ⟨threadnum.toNat - 2, by omega⟩
  rw [run_append, addOne_ran, withTask, create_eq, size]
  simp [race, run, step, workerStep, fresh, Pool.empty, Pool.setPc, Mutex.acquire, Mutex.release, Dispatched]
  exact ⟨1, by omega, by simp⟩

theorem race_dispatches (node : WorkerNode) :
    ∀ event ∈ addOne node ++ race, dispatches event = true := by
  simp [addOne, race, dispatches]

/-- `AddTask` and `ThreadProc` alone, in any order, keep to the order of the list. -/
def AlwaysDispatched (kind : MutexKind) (threadnum : Int) : Prop :=
  ∀ events pool, run (restrict (step kind) dispatches) (Pool.create threadnum) events = some pool →
    Dispatched pool

theorem two_workers_pop_one_task : ¬AlwaysDispatched ⟨true, true⟩ 2 := by
  intro always
  obtain ⟨pool, ran, wrong⟩ := race_ran ⟨true, true⟩ ⟨1, 2⟩ (show (2 : Int) ≤ 2 by decide)
  rw [← run_restrict _ (race_dispatches ⟨1, 2⟩)] at ran
  exact wrong (always _ pool ran)

/-- Only a single worker takes from the list as it should in every order of steps. With more,
every run does in which no worker goes on to pop without a task that is left for it. -/
theorem dispatched_iff (kind : MutexKind) (threadnum : Int) :
    (AlwaysDispatched kind threadnum ↔ threadnum ≤ 1) ∧
      ∀ events pool, run (step kind) (Pool.create threadnum) events = some pool →
        Along (step kind) Backed (Pool.create threadnum) events → Dispatched pool := by
  refine ⟨?_, fun events pool ran backed => dispatched_of_backed ran backed⟩
  apply Iff.intro
  · intro always
    by_contra many
    obtain ⟨pool, ran, wrong⟩ := race_ran kind ⟨1, 2⟩ (show 2 ≤ threadnum by omega)
    rw [← run_restrict _ (race_dispatches ⟨1, 2⟩)] at ran
    exact wrong (always _ pool ran)
  · intro few events pool ran
    have preserved : ∀ pool event next, Solo pool ∧ Backing pool →
        restrict (step kind) dispatches pool event = some next → Solo next ∧ Backing next := by
      intro pool event next both taken
      have moved := step_transition (restrict_eq_some.mp taken).2
      exact ⟨both.1.step moved, both.2.step (both.1.backed event moved) moved⟩
    exact (run_preserves preserved ⟨solo_create few, backing_create threadnum⟩ ran).2.dispatched

end

/-- Both workers pass the exit test before either locks, and each has a task to take. -/
def shared : List Event :=
  addOne ⟨1, 2⟩ ++ addOne ⟨3, 4⟩ ++
    [.worker 0, .worker 1, .worker 0, .worker 1, .worker 1, .worker 1, .worker 1, .worker 0, .worker 0]

theorem dispatched_iff_shared :
    ∃ pool, run (step ⟨true, true⟩) (Pool.create 2) shared = some pool ∧
      pool.taken = [⟨1, 2⟩, ⟨3, 4⟩] ∧ Dispatched pool := by
  obtain ⟨pool, ran, taken, backed⟩ : ∃ pool, run (step ⟨true, true⟩) (Pool.create 2) shared = some pool ∧
      pool.taken = [⟨1, 2⟩, ⟨3, 4⟩] ∧ Along (step ⟨true, true⟩) Backed (Pool.create 2) shared :=
    ⟨_, rfl, rfl, by decide⟩
  exact ⟨pool, ran, taken, (dispatched_iff ⟨true, true⟩ 2).2 shared pool ran backed⟩

end EasyStressTest.Dispatch
