import EasyStressTest.Dispatch

/-!
What `WaitAll` leaves behind. A worker tests its exit flag before it looks at `m_tasks` again, so
the tasks that are still in the list when the last worker leaves its loop are never run.
-/

namespace EasyStressTest.Drain
open Execution Threads ThreadPool PoolStep Dispatch

/-- The task whose worker function is being run, or about to be. -/
def executing : WorkerPc → Option WorkerNode
  | .unlock worker => some worker
  | .work worker => some worker
  | _ => none

/-- The list is empty, nothing is being run, and what was added was run to completion. -/
def Drained (pool : Pool) : Prop :=
  pool.tasks = [] ∧ (∀ p < pool.created, executing (pool.node p).pc = none) ∧
    pool.completed.Perm pool.added

instance (pool : Pool) : Decidable (Drained pool) := inferInstanceAs (Decidable (_ ∧ _ ∧ _))

/-- The last worker to leave its loop finds the list empty. -/
def LeavesNone (pool : Pool) : Event → Prop
  | .worker p =>
      (pool.node p).pc = .exitTest → (pool.node p).isExit = true →
        (∀ q < pool.created, q ≠ p → left (pool.node q).pc = true) → pool.tasks = []
  | _ => True

instance (pool : Pool) (event : Event) : Decidable (LeavesNone pool event) :=
  match event with
  | .worker _ => inferInstanceAs (Decidable (_ → _ → (∀ _ < _, _ → _) → _))
  | .workerSignal _ _ => isTrue trivial
  | .spurious _ => isTrue trivial
  | .addTask _ _ => isTrue trivial
  | .delThread _ _ => isTrue trivial
  | .waitAll _ => isTrue trivial
  | .caller _ => isTrue trivial
  | .callerSignal _ _ => isTrue trivial

/-- No new call is made. -/
def proceeds : Event → Bool
  | .addTask _ _ => false
  | .delThread _ _ => false
  | .waitAll _ => false
  | _ => true

section
variable {kind : MutexKind} {pool next woken : Pool} {p q c n : Nat} {target : Option Nat} {event : Event}

/-! Accounts of the tasks. -/

def runs (worker : WorkerNode) (node : ThreadNode) : Bool := executing node.pc = some worker

/-- How many workers run this task. -/
def inFlight (pool : Pool) (worker : WorkerNode) : Nat := population pool.created pool.node (runs worker)

/-- What was taken was completed or is being run, and the rest of what was added is in the list. -/
structure Accounts (pool : Pool) : Prop where
  taken : ∀ worker, pool.completed.count worker + inFlight pool worker = pool.taken.count worker
  history : pool.taken ++ pool.tasks = pool.added

theorem inFlight_setPc (pool : Pool) (pc : WorkerPc) (worker : WorkerNode) (below : p < pool.created) :
    inFlight (pool.setPc p pc) worker + (runs worker (pool.node p)).toNat =
      inFlight pool worker + (runs worker ⟨pc, false⟩).toNat :=
  population_setPc pool pc (runs worker) below

theorem inFlight_setExit (pool : Pool) (p : Nat) (worker : WorkerNode) :
    inFlight (pool.setExit p) worker = inFlight pool worker :=
  population_setExit pool p fun _ => rfl

theorem Accounts.moves {pc : WorkerPc} (accounts : Accounts pool) (below : p < pool.created)
    (before : executing (pool.node p).pc = none) (after : executing pc = none) :
    Accounts (pool.setPc p pc) := by
  refine ⟨?_, accounts.history⟩
  intro worker
  have moved := inFlight_setPc pool pc worker below
  simp only [runs, before, after] at moved
  have taken := accounts.taken worker
  simp only [Pool.setPc_completed, Pool.setPc_taken]
  omega

theorem Accounts.condSignal (accounts : Accounts pool) (signalled : pool.condSignal target = some woken) :
    Accounts woken := by
  rcases condSignal_eq_some.mp signalled with ⟨q, _, sleeps, same⟩ | ⟨_, _, same⟩
  · rw [same]
    exact accounts.moves sleeps.1 (by rw [sleeps.2]; rfl) rfl
  · rw [same]
    exact accounts

theorem Accounts.setExit (accounts : Accounts pool) (p : Nat) : Accounts (pool.setExit p) := by
  refine ⟨?_, accounts.history⟩
  intro worker
  rw [inFlight_setExit]
  exact accounts.taken worker

theorem Accounts.step (accounts : Accounts pool) (taken : Transition kind pool event next) :
    Accounts next := by
  have counted := accounts.taken
  have history := accounts.history
  cases taken with
  | testWait below here => exact accounts.moves below (by rw [here]; rfl) rfl
  | testPass below here => exact accounts.moves below (by rw [here]; rfl) rfl
  | @sleep p below here =>
    have still : Accounts { pool with mutex := pool.mutex.release kind (.worker p) } := ⟨counted, history⟩
    exact still.moves below (by simp [here, executing]) rfl
  | @reacquire p mutex below here =>
    have still : Accounts { pool with mutex := mutex } := ⟨counted, history⟩
    exact still.moves below (by simp [here, executing]) rfl
  | leave below here => exact accounts.moves below (by rw [here]; rfl) rfl
  | stay below here => exact accounts.moves below (by rw [here]; rfl) rfl
  | @lock p mutex below here =>
    have still : Accounts { pool with mutex := mutex } := ⟨counted, history⟩
    exact still.moves below (by simp [here, executing]) rfl
  | @pop p worker rest below here front =>
    refine ⟨?_, by simpa [front] using history⟩
    intro other
    have moved := inFlight_setPc { pool with tasks := rest, taken := pool.taken ++ [worker] }
      (.unlock worker) other below
    have before : inFlight { pool with tasks := rest, taken := pool.taken ++ [worker] } other =
        inFlight pool other := rfl
    have past := counted other
    simp only [runs, here, executing, before] at moved
    simp only [Pool.setPc_completed, Pool.setPc_taken, List.count_append, List.count_singleton]
    by_cases same : worker = other
    · simp only [same, decide_true, Bool.toNat_true, reduceCtorEq, decide_false, Bool.toNat_false,
        beq_self_eq_true, if_true] at moved ⊢
      omega
    · simp only [Option.some.injEq, same, reduceCtorEq, decide_false, Bool.toNat_false,
        beq_iff_eq, if_false] at moved ⊢
      omega
  | @unlock p worker below here =>
    refine ⟨?_, history⟩
    intro other
    have moved := inFlight_setPc { pool with mutex := pool.mutex.release kind (.worker p) }
      (.work worker) other below
    have before : inFlight { pool with mutex := pool.mutex.release kind (.worker p) } other =
        inFlight pool other := rfl
    have past := counted other
    have level : runs other (pool.node p) = runs other ⟨.work worker, false⟩ := by
      rw [runs, here]
      rfl
    simp only [before, level] at moved
    simp only [Pool.setPc_completed, Pool.setPc_taken]
    omega
  | @work p worker below here =>
    refine ⟨?_, history⟩
    intro other
    have moved := inFlight_setPc { pool with completed := pool.completed ++ [worker] } .test other below
    have before : inFlight { pool with completed := pool.completed ++ [worker] } other =
        inFlight pool other := rfl
    have past := counted other
    simp only [runs, here, executing, before] at moved
    simp only [Pool.setPc_completed, Pool.setPc_taken, List.count_append, List.count_singleton]
    by_cases same : worker = other
    · simp only [same, decide_true, Bool.toNat_true, reduceCtorEq, decide_false, Bool.toNat_false,
        beq_self_eq_true, if_true] at moved ⊢
      omega
    · simp only [Option.some.injEq, same, reduceCtorEq, decide_false, Bool.toNat_false,
        beq_iff_eq, if_false] at moved ⊢
      omega
  | @exitSignal p _ woken below here signalled =>
    obtain ⟨_, _, _, _, created, leaves⟩ := claims_condSignal signalled
    have still := accounts.condSignal signalled
    exact still.moves (by rw [created]; exact below) (by rw [leaves _ here]; rfl) rfl
  | spurious sleeps => exact accounts.moves sleeps.1 (by rw [sleeps.2]; rfl) rfl
  | addPush here =>
    refine ⟨counted, ?_⟩
    change pool.taken ++ (pool.tasks ++ [_]) = pool.added ++ [_]
    rw [← List.append_assoc, history]
  | @delFlag c left pnode here =>
    obtain ⟨counted, history⟩ := accounts.setExit pnode
    exact ⟨counted, history⟩
  | @waitFlag c i pnode here =>
    obtain ⟨counted, history⟩ := accounts.setExit pnode
    exact ⟨counted, history⟩
  | callerSignal after signalled =>
    obtain ⟨counted, history⟩ := accounts.condSignal signalled
    exact ⟨counted, history⟩
  | _ => exact ⟨counted, history⟩

theorem accounts_create (threadnum : Int) : Accounts (Pool.create threadnum) := by
  rw [create_eq]
  refine ⟨?_, rfl⟩
  intro worker
  have none : population threadnum.toNat Pool.empty.node (runs worker) = 0 :=
    population_eq_zero.mpr fun _ _ => rfl
  change 0 + population threadnum.toNat Pool.empty.node (runs worker) = 0
  rw [none]

/-- Once no worker runs anything, what was completed and what is left is what was added. -/
theorem Accounts.settled (accounts : Accounts pool)
    (quiet : ∀ p < pool.created, executing (pool.node p).pc = none) :
    (pool.completed ++ pool.tasks).Perm pool.added := by
  apply List.perm_iff_count.mpr
  intro worker
  have none : inFlight pool worker = 0 := by
    apply population_eq_zero.mpr
    intro p below
    simp [runs, quiet p below]
  have taken := accounts.taken worker
  rw [← accounts.history, List.count_append, List.count_append]
  omega

/-! Before the call. -/

theorem adds_afterSignal {before after : CallerPc} (signals : afterSignal before = some after)
    (adding : adds before = true) : adds after = true := by
  cases before with
  | addSignal =>
    cases signals
    rfl
  | delSignal => cases adding
  | waitSignal => cases adding
  | _ => cases signals

/-- No thread was told to exit. -/
structure Filling (n : Nat) (pool : Pool) : Prop where
  threads : pool.threads = List.range n
  created : pool.created = n
  joined : pool.joined = []
  clear : ∀ p, (pool.node p).isExit = false
  staying : ∀ p, left (pool.node p).pc = false
  adding : ∀ c, adds (pool.callers c) = true

theorem Filling.moves (filling : Filling n pool) (pc : WorkerPc) (stays : left pc = false)
    (moved : Moved p pc pool next) : Filling n next := by
  refine ⟨moved.threads.trans filling.threads, moved.created.trans filling.created,
    moved.joined.trans filling.joined, ?_, ?_, ?_⟩
  · intro q
    rw [moved.node, isExit_setPc]
    exact filling.clear q
  · intro q
    rw [moved.node, pc_setPc]
    split
    · exact stays
    · exact filling.staying q
  · intro c
    rw [moved.callers]
    exact filling.adding c

theorem Filling.calls (filling : Filling n pool) (pc : CallerPc) (adding : adds pc = true)
    (called : Called c pc pool next) (threads : next.threads = pool.threads)
    (joined : next.joined = pool.joined) : Filling n next := by
  refine ⟨threads.trans filling.threads, called.created.trans filling.created,
    joined.trans filling.joined, ?_, ?_, ?_⟩
  · intro q
    rw [called.node]
    exact filling.clear q
  · intro q
    rw [called.node]
    exact filling.staying q
  · intro d
    rw [called.callers, callers_setCaller]
    split
    · exact adding
    · exact filling.adding d

theorem Filling.condSignal (filling : Filling n pool)
    (signalled : pool.condSignal target = some woken) : Filling n woken := by
  rcases condSignal_eq_some.mp signalled with ⟨q, _, _, same⟩ | ⟨_, _, same⟩
  · rw [same]
    exact filling.moves .woken rfl moved_setPc
  · rw [same]
    exact filling

theorem Filling.step (filling : Filling n pool) (adding : dispatches event = true)
    (taken : Transition kind pool event next) : Filling n next := by
  have absurd_caller : ∀ {c : Nat} {pc : CallerPc}, pool.callers c = pc → adds pc = false → False := by
    intro c pc here other
    have adds' := filling.adding c
    rw [here, other] at adds'
    cases adds'
  cases taken with
  | testWait => exact filling.moves .wait rfl moved_setPc
  | testPass => exact filling.moves .exitTest rfl moved_setPc
  | sleep => exact filling.moves .asleep rfl moved_setPc
  | reacquire => exact filling.moves .test rfl moved_setPc
  | leave below here exits =>
    rw [filling.clear] at exits
    cases exits
  | stay => exact filling.moves .lock rfl moved_setPc
  | lock => exact filling.moves .pop rfl moved_setPc
  | @pop p worker => exact filling.moves (.unlock worker) rfl moved_setPc
  | @unlock p worker => exact filling.moves (.work worker) rfl moved_setPc
  | work => exact filling.moves .test rfl moved_setPc
  | @exitSignal p _ _ below here =>
    have stays := filling.staying p
    rw [here] at stays
    cases stays
  | spurious => exact filling.moves .woken rfl moved_setPc
  | addTask node => exact filling.calls (.addLock node) rfl called_setCaller rfl rfl
  | delThread => cases adding
  | waitAll => cases adding
  | @addLock c node => exact filling.calls (.addPush node) rfl called_setCaller rfl rfl
  | addPush => exact filling.calls .addSignal rfl called_setCaller rfl rfl
  | addUnlock => exact filling.calls .idle rfl called_setCaller rfl rfl
  | delReturn here => exact (absurd_caller here rfl).elim
  | delNone here => exact (absurd_caller here rfl).elim
  | delLast here => exact (absurd_caller here rfl).elim
  | delFlag here => exact (absurd_caller here rfl).elim
  | delJoin here => exact (absurd_caller here rfl).elim
  | delDelete here => exact (absurd_caller here rfl).elim
  | waitFlag here => exact (absurd_caller here rfl).elim
  | waitFlagged here => exact (absurd_caller here rfl).elim
  | waitJoin here => exact (absurd_caller here rfl).elim
  | waitReturn here => exact (absurd_caller here rfl).elim
  | @callerSignal c target woken pc after signalled =>
    have adding : adds pc = true := adds_afterSignal after (filling.adding c)
    exact (filling.condSignal signalled).calls pc adding called_setCaller rfl rfl

theorem filling_create (threadnum : Int) : Filling threadnum.toNat (Pool.create threadnum) := by
  rw [create_eq]
  exact ⟨rfl, rfl, rfl, fun _ => rfl, fun _ => rfl, fun _ => rfl⟩

/-! During the call. -/

/-- The step that `WaitAll` is at, with the threads that it has joined before. -/
def Waits (n : Nat) (pool : Pool) : CallerPc → Prop
  | .waitFlag _ => True
  | .waitSignal _ => True
  | .waitJoin i => ∀ p < n, p < i → (pool.node p).pc = .finished
  | .idle => ∀ p < n, (pool.node p).pc = .finished
  | _ => False

theorem Waits.mono {pc : CallerPc} (waits : Waits n pool pc)
    (finished : ∀ p, (pool.node p).pc = .finished → (next.node p).pc = .finished) : Waits n next pc := by
  cases pc with
  | waitFlag => trivial
  | waitSignal => trivial
  | waitJoin i => exact fun p below before => finished p (waits p below before)
  | idle => exact fun p below => finished p (waits p below)
  | _ => exact waits

/-- Only c uses the pool, in `WaitAll`. -/
structure Waiting (n c : Nat) (pool : Pool) : Prop where
  threads : pool.threads = List.range n
  created : pool.created = n
  joined : ∀ p ∈ pool.joined, (pool.node p).pc = .finished
  others : ∀ d, d ≠ c → pool.callers d = .idle
  stage : Waits n pool (pool.callers c)

theorem finished_stays (taken : Transition kind pool event next) (p : Nat)
    (ended : (pool.node p).pc = .finished) : (next.node p).pc = .finished := by
  have gone : left (pool.node p).pc = true := by rw [ended]; rfl
  rcases taken.left_stays gone with same | finished
  · exact same.trans ended
  · exact finished

/-- A step of a worker. -/
theorem Waiting.moves (waiting : Waiting n c pool) (taken : Transition kind pool event next)
    (threads : next.threads = pool.threads) (joined : next.joined = pool.joined)
    (callers : next.callers = pool.callers) : Waiting n c next := by
  refine ⟨threads.trans waiting.threads, taken.created.trans waiting.created, ?_, ?_, ?_⟩
  · intro p member
    rw [joined] at member
    exact finished_stays taken p (waiting.joined p member)
  · intro d other
    rw [callers]
    exact waiting.others d other
  · rw [callers]
    exact waiting.stage.mono (finished_stays taken)

/-- A step of `WaitAll`. -/
theorem Waiting.calls {pc : CallerPc} (waiting : Waiting n c pool)
    (taken : Transition kind pool event next) (threads : next.threads = pool.threads)
    (joined : ∀ p ∈ next.joined, (next.node p).pc = .finished)
    (callers : next.callers = (pool.setCaller c pc).callers) (stage : Waits n next pc) :
    Waiting n c next := by
  refine ⟨threads.trans waiting.threads, taken.created.trans waiting.created, joined, ?_, ?_⟩
  · intro d other
    rw [callers, callers_setCaller, if_neg other]
    exact waiting.others d other
  · rw [callers, callers_setCaller, if_pos rfl]
    exact stage

/-- The caller that takes a step is the one in `WaitAll`. -/
theorem Waiting.caller {d : Nat} (waiting : Waiting n c pool) (busy : pool.callers d ≠ .idle) : d = c := by
  by_contra other
  exact busy (waiting.others d other)

theorem Waiting.astray {d : Nat} {pc : CallerPc} (waiting : Waiting n c pool) (here : pool.callers d = pc)
    (busy : pc ≠ .idle) : Waits n pool pc := by
  have self := waiting.caller (d := d) (by rw [here]; exact busy)
  rw [← here, self]
  exact waiting.stage

theorem joined_finished {joined : List Nat} (past : ∀ q ∈ pool.joined, (pool.node q).pc = .finished)
    (ended : p ∈ pool.joined ∧ joined = pool.joined ∨
      p ∉ pool.joined ∧ (pool.node p).pc = .finished ∧ joined = p :: pool.joined) :
    (pool.node p).pc = .finished ∧ ∀ q ∈ joined, (pool.node q).pc = .finished := by
  rcases ended with ⟨member, same⟩ | ⟨_, finished, same⟩
  · rw [same]
    exact ⟨past p member, past⟩
  · rw [same]
    refine ⟨finished, ?_⟩
    intro q member
    rcases List.mem_cons.mp member with self | others
    · rw [self]
      exact finished
    · exact past q others

theorem Waiting.step (waiting : Waiting n c pool) (proceeding : proceeds event = true)
    (taken : Transition kind pool event next) : Waiting n c next := by
  have same := taken
  cases taken with
  | exitSignal below here signalled =>
    obtain ⟨node, frame, _⟩ := condSignal_frame signalled
    subst frame
    exact waiting.moves same rfl rfl rfl
  | addTask => cases proceeding
  | delThread => cases proceeding
  | waitAll => cases proceeding
  | addLock here => exact (waiting.astray here (by simp)).elim
  | addPush here => exact (waiting.astray here (by simp)).elim
  | addUnlock here => exact (waiting.astray here (by simp)).elim
  | delReturn here => exact (waiting.astray here (by simp)).elim
  | delNone here => exact (waiting.astray here (by simp)).elim
  | delLast here => exact (waiting.astray here (by simp)).elim
  | delFlag here => exact (waiting.astray here (by simp)).elim
  | delJoin here => exact (waiting.astray here (by simp)).elim
  | delDelete here => exact (waiting.astray here (by simp)).elim
  | @waitFlag d i pnode here =>
    have self := waiting.caller (d := d) (by simp [here])
    subst self
    have joined : ∀ p ∈ pool.joined, ((pool.setExit pnode).node p).pc = .finished := by
      intro p member
      rw [pc_setExit]
      exact waiting.joined p member
    exact waiting.calls same rfl joined rfl trivial
  | @waitFlagged d i here =>
    have self := waiting.caller (d := d) (by simp [here])
    subst self
    exact waiting.calls same rfl waiting.joined rfl (fun p _ before => absurd before (Nat.not_lt_zero p))
  | @waitJoin d i pnode joined here entry ended =>
    have self := waiting.caller (d := d) (by simp [here])
    subst self
    obtain ⟨finished, all⟩ := joined_finished waiting.joined ended
    have stage : Waits n pool (.waitJoin i) := by
      rw [← here]
      exact waiting.stage
    refine waiting.calls same rfl all rfl ?_
    intro p below before
    by_cases last : p = i
    · rw [last] at below
      rw [waiting.threads, List.getElem?_range below] at entry
      rw [last, Option.some.inj entry]
      exact finished
    · exact stage p below (by omega)
  | @waitReturn d i here none =>
    have self := waiting.caller (d := d) (by simp [here])
    subst self
    have stage : Waits n pool (.waitJoin i) := by
      rw [← here]
      exact waiting.stage
    have all : n ≤ i := by
      rw [waiting.threads, List.getElem?_eq_none_iff, List.length_range] at none
      exact none
    exact waiting.calls same rfl waiting.joined rfl (fun p below => stage p below (by omega))
  | @callerSignal d target woken pc after signalled =>
    have busy : pool.callers d ≠ .idle := by
      intro idle
      rw [idle] at after
      cases after
    have self := waiting.caller busy
    subst self
    obtain ⟨node, frame, how⟩ := condSignal_frame signalled
    subst frame
    have joined : ∀ p ∈ pool.joined, (node p).pc = .finished := by
      intro p member
      have past := waiting.joined p member
      simpa [past] using (how p).2
    refine waiting.calls same rfl joined rfl ?_
    have stage := waiting.stage
    cases here : pool.callers d with
    | waitSignal =>
      rw [here] at after
      cases after
      trivial
    | addSignal =>
      rw [here] at stage
      exact stage.elim
    | delSignal =>
      rw [here] at stage
      exact stage.elim
    | _ =>
      rw [here] at after
      cases after
  | _ => exact waiting.moves same rfl rfl rfl

/-! The last worker. -/

def Deserted (pool : Pool) : Prop := ∀ p < pool.created, left (pool.node p).pc = true

theorem deserted_next (taken : Transition kind pool event next) (deserted : Deserted pool) :
    Deserted next := by
  intro p below
  rw [taken.created] at below
  rcases taken.left_stays (deserted p below) with same | finished
  · rw [same]
    exact deserted p below
  · rw [finished]
    rfl

/-- The list stays as it is once all workers have left. -/
theorem Waiting.tasks_kept (waiting : Waiting n c pool) (proceeding : proceeds event = true)
    (deserted : Deserted pool) (taken : Transition kind pool event next) : next.tasks = pool.tasks := by
  cases taken with
  | @pop p _ _ below here =>
    have gone := deserted p below
    rw [here] at gone
    cases gone
  | addPush here => exact (waiting.astray here (by simp)).elim
  | exitSignal below here signalled =>
    obtain ⟨node, same, _⟩ := condSignal_frame signalled
    rw [same]
    rfl
  | callerSignal after signalled =>
    obtain ⟨node, same, _⟩ := condSignal_frame signalled
    rw [same]
    rfl
  | _ => rfl

/-- The step by which the last worker leaves. -/
theorem deserting (taken : Transition kind pool event next) (staying : ¬Deserted pool)
    (deserted : Deserted next) :
    ∃ p, event = .worker p ∧ (pool.node p).pc = .exitTest ∧ (pool.node p).isExit = true ∧
      (∀ q < pool.created, q ≠ p → left (pool.node q).pc = true) ∧ next.tasks = pool.tasks := by
  simp only [Deserted, not_forall] at staying
  obtain ⟨p, below, here⟩ := staying
  rcases taken.left_gained (deserted p (by rw [taken.created]; exact below)) with gone | leaves
  · exact absurd gone here
  · obtain ⟨about, test, exits, tasks⟩ := leaves
    refine ⟨p, about, test, exits, ?_, tasks⟩
    intro q inside other
    rcases taken.left_gained (deserted q (by rw [taken.created]; exact inside)) with gone | same
    · exact gone
    · rw [about] at same
      exact absurd (Event.worker.inj same.1).symm other

/-- The workers have left something in the list. -/
def Stranded (pool : Pool) : Prop := Deserted pool ∧ pool.tasks ≠ []

theorem strands (taken : Transition kind pool event next)
    (wrong : ¬LeavesNone pool event) : Stranded next := by
  cases event with
  | worker p =>
    simp only [LeavesNone, Classical.not_imp] at wrong
    obtain ⟨here, exits, others, tasks⟩ := wrong
    have kept : next = pool.setPc p .exitSignal := by
      cases taken <;> simp_all
    rw [kept]
    refine ⟨?_, tasks⟩
    intro q below
    rw [pc_setPc]
    split
    · rfl
    · next other => exact others q below other
  | _ => exact absurd trivial wrong

theorem Waiting.stranded (waiting : Waiting n c pool) (proceeding : proceeds event = true)
    (stranded : Stranded pool) (taken : Transition kind pool event next) : Stranded next := by
  refine ⟨deserted_next taken stranded.1, ?_⟩
  rw [waiting.tasks_kept proceeding stranded.1 taken]
  exact stranded.2

theorem Waiting.emptied (waiting : Waiting n c pool) (proceeding : proceeds event = true)
    (none : LeavesNone pool event) (emptied : Deserted pool → pool.tasks = [])
    (taken : Transition kind pool event next) (deserted : Deserted next) : next.tasks = [] := by
  by_cases already : Deserted pool
  · rw [waiting.tasks_kept proceeding already taken]
    exact emptied already
  · obtain ⟨p, about, here, exits, others, tasks⟩ := deserting taken already deserted
    rw [about] at none
    rw [tasks]
    exact none here exits others

/-! The call as a whole. -/

theorem filling_waits {called begun : Pool} (filling : Filling n called)
    (completed : ∀ d, called.callers d = .idle)
    (calls : step kind called (.waitAll c) = some begun) :
    Waiting n c begun ∧ ∀ p, left (begun.node p).pc = false := by
  obtain ⟨idle, same⟩ := call_eq_some.mp calls
  subst same
  refine ⟨⟨filling.threads, filling.created, ?_, ?_, ?_⟩, filling.staying⟩
  · intro p member
    change p ∈ called.joined at member
    rw [filling.joined] at member
    cases member
  · intro d other
    rw [callers_setCaller, if_neg other]
    exact completed d
  · rw [callers_setCaller, if_pos rfl]
    trivial

theorem filled {threadnum : Int} {before : List Event} {called : Pool}
    (added : run (restrict (step kind) dispatches) (Pool.create threadnum) before = some called) :
    Filling threadnum.toNat called ∧ Accounts called := by
  have preserved : ∀ pool event next, Filling threadnum.toNat pool ∧ Accounts pool →
      restrict (step kind) dispatches pool event = some next →
        Filling threadnum.toNat next ∧ Accounts next := by
    intro pool event next both taken
    obtain ⟨adding, stepped⟩ := restrict_eq_some.mp taken
    exact ⟨both.1.step adding (step_transition stepped), both.2.step (step_transition stepped)⟩
  exact run_preserves preserved ⟨filling_create threadnum, accounts_create threadnum⟩ added

/-- `WaitAll` drains the list exactly when the last worker to leave its loop finds it empty. -/
theorem drained_iff (kind : MutexKind) {threadnum : Int} (positive : 1 ≤ threadnum)
    {before after : List Event} {c : Nat} {called begun pool : Pool}
    (added : run (restrict (step kind) dispatches) (Pool.create threadnum) before = some called)
    (completed : ∀ d, called.callers d = .idle)
    (calls : step kind called (.waitAll c) = some begun)
    (waits : run (restrict (step kind) proceeds) begun after = some pool)
    (returned : pool.callers c = .idle) :
    Drained pool ↔ Along (restrict (step kind) proceeds) LeavesNone begun after := by
  obtain ⟨filling, accounts⟩ := filled added
  obtain ⟨waiting, staying⟩ := filling_waits filling completed calls
  have accounted : Accounts begun := accounts.step (step_transition calls)
  have someone : ¬Deserted begun := by
    intro deserted
    have gone := deserted 0 (by rw [waiting.created]; omega)
    rw [staying 0] at gone
    cases gone
  have kept : ∀ pool event next, Waiting threadnum.toNat c pool →
      restrict (step kind) proceeds pool event = some next → Waiting threadnum.toNat c next := by
    intro pool event next waiting taken
    obtain ⟨proceeding, stepped⟩ := restrict_eq_some.mp taken
    exact waiting.step proceeding (step_transition stepped)
  have waited := run_preserves kept waiting waits
  have finished : ∀ p < pool.created, (pool.node p).pc = .finished := by
    intro p below
    have stage := waited.stage
    rw [returned] at stage
    exact stage p (by rw [← waited.created]; exact below)
  apply Iff.intro
  · intro drained
    by_contra broken
    have enters : ∀ pool event next, Waiting threadnum.toNat c pool → ¬LeavesNone pool event →
        restrict (step kind) proceeds pool event = some next → Stranded next := by
      intro pool event next _ wrong taken
      exact strands (step_transition (restrict_eq_some.mp taken).2) wrong
    have stays : ∀ pool event next, Waiting threadnum.toNat c pool → Stranded pool →
        restrict (step kind) proceeds pool event = some next → Stranded next := by
      intro pool event next waiting stranded taken
      obtain ⟨proceeding, stepped⟩ := restrict_eq_some.mp taken
      exact waiting.stranded proceeding stranded (step_transition stepped)
    have stranded := bad_of_not_along kept enters stays waiting waits broken
    exact stranded.2 drained.1
  · intro leaves
    have preserved : ∀ pool event next,
        (Waiting threadnum.toNat c pool ∧ Accounts pool ∧ (Deserted pool → pool.tasks = [])) →
          LeavesNone pool event → restrict (step kind) proceeds pool event = some next →
            Waiting threadnum.toNat c next ∧ Accounts next ∧ (Deserted next → next.tasks = []) := by
      rintro pool event next ⟨waiting, accounts, emptied⟩ none taken
      obtain ⟨proceeding, stepped⟩ := restrict_eq_some.mp taken
      have moved := step_transition stepped
      exact ⟨waiting.step proceeding moved, accounts.step moved,
        waiting.emptied proceeding none emptied moved⟩
    have initially : Waiting threadnum.toNat c begun ∧ Accounts begun ∧
        (Deserted begun → begun.tasks = []) :=
      ⟨waiting, accounted, fun deserted => absurd deserted someone⟩
    obtain ⟨_, settled, emptied⟩ := run_preserves_along preserved initially leaves waits
    have quiet : ∀ p < pool.created, executing (pool.node p).pc = none := by
      intro p below
      rw [finished p below]
      rfl
    have none : pool.tasks = [] := by
      apply emptied
      intro p below
      rw [finished p below]
      rfl
    refine ⟨none, quiet, ?_⟩
    have all := settled.settled quiet
    rw [none, List.append_nil] at all
    exact all

end

/-! Runs of one worker. -/

/-- What `WaitAll` does while it waits for one worker that leaves at once. -/
def leaveAtOnce : List Event :=
  [.caller 0, .callerSignal 0 none, .caller 0, .worker 0, .worker 0, .workerSignal 0 none, .caller 0,
    .caller 0]

/-- The worker takes a task, and comes back to its test. -/
def takeOne : List Event :=
  [.worker 0, .worker 0, .worker 0, .worker 0, .worker 0, .worker 0]

/-- `WaitAll` drains the list in every order of steps. -/
def AlwaysDrains (kind : MutexKind) (threadnum : Int) : Prop :=
  ∀ before after c called begun pool,
    run (restrict (step kind) dispatches) (Pool.create threadnum) before = some called →
      (∀ d, called.callers d = .idle) → step kind called (.waitAll c) = some begun →
        run (restrict (step kind) proceeds) begun after = some pool → pool.callers c = .idle →
          Drained pool

theorem one_worker_drops_one_task : ¬AlwaysDrains ⟨true, true⟩ 1 := by
  intro always
  have added := addOne_ran ⟨true, true⟩ 1 ⟨1, 2⟩
  rw [← run_restrict _ (addOne_dispatches ⟨1, 2⟩)] at added
  have drained := always _ leaveAtOnce 0 _ _ _ added (fun _ => rfl) rfl rfl rfl
  exact absurd drained.1 (List.cons_ne_nil _ _)

theorem one_worker_drains_one_task :
    ∃ begun pool, step ⟨true, true⟩ (withTask (Pool.create 1) ⟨1, 2⟩) (.waitAll 0) = some begun ∧
      run (restrict (step ⟨true, true⟩) proceeds) begun (takeOne ++ leaveAtOnce) = some pool ∧
        Drained pool := by
  have added := addOne_ran ⟨true, true⟩ 1 ⟨1, 2⟩
  rw [← run_restrict _ (addOne_dispatches ⟨1, 2⟩)] at added
  refine ⟨(withTask (Pool.create 1) ⟨1, 2⟩).setCaller 0 (.waitFlag 0), _, rfl, rfl, ?_⟩
  apply (drained_iff ⟨true, true⟩ (by decide) added (fun _ => rfl)
    (show step ⟨true, true⟩ (withTask (Pool.create 1) ⟨1, 2⟩) (.waitAll 0) = some _ from rfl)
    (show run (restrict (step ⟨true, true⟩) proceeds) _ (takeOne ++ leaveAtOnce) = some _ from rfl)
    rfl).mpr
  decide

end EasyStressTest.Drain
