import EasyStressTest.ThreadPool

/-!
What one step of the pool can do, said once: `Transition` has a constructor for each way on
through `ThreadProc`, `AddTask`, `DelThread` and `WaitAll`.
-/

namespace EasyStressTest.PoolStep
open Execution Threads ThreadPool

/-- Past the `break` of `ThreadProc`. -/
def left : WorkerPc → Bool
  | .exitSignal => true
  | .finished => true
  | _ => false

/-- A caller that is not in `DelThread` or `WaitAll`. -/
def adds : CallerPc → Bool
  | .idle => true
  | .addLock _ => true
  | .addPush _ => true
  | .addSignal => true
  | .addUnlock => true
  | _ => false

/-- Between the lock and the unlock of `AddTask`. -/
def pushes : CallerPc → Bool
  | .addPush _ => true
  | .addSignal => true
  | .addUnlock => true
  | _ => false

section
variable {kind : MutexKind} {pool next woken : Pool} {p q c : Nat} {target : Option Nat}

@[simp] theorem pc_setPc (pool : Pool) (p q : Nat) (pc : WorkerPc) :
    ((pool.setPc p pc).node q).pc = if q = p then pc else (pool.node q).pc := by
  by_cases same : q = p
  · subst same
    simp [Pool.setPc]
  · simp [Pool.setPc, same]

@[simp] theorem isExit_setPc (pool : Pool) (p q : Nat) (pc : WorkerPc) :
    ((pool.setPc p pc).node q).isExit = (pool.node q).isExit := by
  by_cases same : q = p
  · subst same
    simp [Pool.setPc]
  · simp [Pool.setPc, same]

@[simp] theorem pc_setExit (pool : Pool) (p q : Nat) :
    ((pool.setExit p).node q).pc = (pool.node q).pc := by
  by_cases same : q = p
  · subst same
    simp [Pool.setExit]
  · simp [Pool.setExit, same]

@[simp] theorem isExit_setExit (pool : Pool) (p q : Nat) :
    ((pool.setExit p).node q).isExit = if q = p then true else (pool.node q).isExit := by
  by_cases same : q = p
  · subst same
    simp [Pool.setExit]
  · simp [Pool.setExit, same]

@[simp] theorem callers_setCaller (pool : Pool) (c d : Nat) (pc : CallerPc) :
    (pool.setCaller c pc).callers d = if d = c then pc else pool.callers d := by
  by_cases same : d = c
  · subst same
    simp [Pool.setCaller]
  · simp [Pool.setCaller, same]

/-- Worker p went on to another step, whatever that did to the mutex and the tasks. -/
structure Moved (p : Nat) (pc : WorkerPc) (pool next : Pool) : Prop where
  threads : next.threads = pool.threads
  created : next.created = pool.created
  joined : next.joined = pool.joined
  node : next.node = (pool.setPc p pc).node
  callers : next.callers = pool.callers

theorem moved_setPc {pc : WorkerPc} {mutex : Mutex Thread} {tasks taken completed : List WorkerNode} :
    Moved p pc pool
      ({ pool with mutex := mutex, tasks := tasks, taken := taken, completed := completed }.setPc p pc) :=
  ⟨rfl, rfl, rfl, rfl, rfl⟩

/-- Caller c went on to another step, and no worker did. -/
structure Called (c : Nat) (pc : CallerPc) (pool next : Pool) : Prop where
  created : next.created = pool.created
  node : next.node = pool.node
  callers : next.callers = (pool.setCaller c pc).callers

theorem called_setCaller {pc : CallerPc} {threads joined deleted : List Nat} {mutex : Mutex Thread}
    {tasks added : List WorkerNode} :
    Called c pc pool
      (Pool.setCaller
        { pool with
          threads := threads
          joined := joined
          deleted := deleted
          mutex := mutex
          tasks := tasks
          added := added } c pc) :=
  ⟨rfl, rfl, rfl⟩

theorem population_setPc (pool : Pool) (pc : WorkerPc) (predicate : ThreadNode → Bool) (below : p < pool.created) :
    population pool.created (pool.setPc p pc).node predicate + (predicate (pool.node p)).toNat =
      population pool.created pool.node predicate + (predicate ⟨pc, (pool.node p).isExit⟩).toNat :=
  population_update _ below

/-- To be told to exit changes no count of steps. -/
theorem population_setExit (pool : Pool) (p : Nat) {predicate : ThreadNode → Bool}
    (same : ∀ node : ThreadNode, predicate { node with isExit := true } = predicate node) :
    population pool.created (pool.setExit p).node predicate = population pool.created pool.node predicate := by
  apply List.countP_congr
  intro q _
  by_cases self : q = p
  · subst self
    simp [Pool.setExit, same]
  · simp [Pool.setExit, self]

/-- The pool after its constructor has created n threads. -/
def fresh (n : Nat) : Pool :=
  { Pool.empty with
    threads := List.range n
    created := n }

theorem create_eq (threadnum : Int) : Pool.create threadnum = fresh threadnum.toNat := by
  have grown : ∀ n, Nat.repeat Pool.newThread n Pool.empty = fresh n := by
    intro n
    induction n with
    | zero => rfl
    | succ n ih =>
      have same : Function.update Pool.empty.node n ⟨.test, false⟩ = Pool.empty.node :=
        Function.update_eq_self n Pool.empty.node
      rw [Nat.repeat, ih, Pool.newThread, fresh, fresh, List.range_succ]
      simp only [same]
  exact grown threadnum.toNat

/-- A signal wakes a sleeper, or there is none. -/
theorem condSignal_eq_some :
    pool.condSignal target = some woken ↔
      (∃ q, target = some q ∧ pool.Asleep q ∧ woken = pool.setPc q .woken) ∨
        target = none ∧ (∀ q < pool.created, ¬pool.Asleep q) ∧ woken = pool := by
  cases target with
  | some q =>
    by_cases sleeps : pool.Asleep q
    · simp [Pool.condSignal, sleeps, eq_comm]
    · simp [Pool.condSignal, sleeps]
  | none =>
    by_cases nobody : ∀ q < pool.created, ¬pool.Asleep q
    · simp only [Pool.condSignal, if_pos nobody, Option.some.injEq, reduceCtorEq, false_and,
        exists_false, false_or, true_and]
      exact ⟨fun same => ⟨nobody, same.symm⟩, fun both => both.2.symm⟩
    · simp only [Pool.condSignal, if_neg nobody, reduceCtorEq, false_and, exists_false, false_or,
        true_and, false_iff, not_and]
      exact fun nobody' => absurd nobody' nobody

/-- A signal changes nothing but the step that a sleeper is at. -/
theorem condSignal_frame (signalled : pool.condSignal target = some woken) :
    ∃ node, woken = { pool with node := node } ∧ ∀ q, (node q).isExit = (pool.node q).isExit ∧
      ((node q).pc = (pool.node q).pc ∨ (pool.node q).pc = .asleep ∧ (node q).pc = .woken) := by
  rcases condSignal_eq_some.mp signalled with ⟨p, _, sleeps, same⟩ | ⟨_, _, same⟩
  · refine ⟨(pool.setPc p .woken).node, same, ?_⟩
    intro q
    refine ⟨isExit_setPc pool p q .woken, ?_⟩
    by_cases self : q = p
    · subst self
      exact Or.inr ⟨sleeps.2, by simp⟩
    · exact Or.inl (by simp [self])
  · exact ⟨pool.node, same, fun q => ⟨rfl, Or.inl rfl⟩⟩

theorem join_eq_some :
    pool.join p = some next ↔
      p ∉ pool.deleted ∧
        (p ∈ pool.joined ∧ next = pool ∨
          p ∉ pool.joined ∧ (pool.node p).pc = .finished ∧
            next = { pool with joined := p :: pool.joined }) := by
  unfold Pool.join
  by_cases gone : p ∈ pool.deleted
  · simp [gone]
  · by_cases past : p ∈ pool.joined
    · simp [gone, past, eq_comm]
    · by_cases ended : (pool.node p).pc = .finished
      · simp [gone, past, ended, eq_comm]
      · simp [gone, past, ended]

/-- The ways on, with the state before and the guards of the source. -/
inductive Transition (kind : MutexKind) (pool : Pool) : Event → Pool → Prop
  | testWait {p : Nat} (below : p < pool.created) (here : (pool.node p).pc = .test)
      (empty : pool.tasks = []) (clear : (pool.node p).isExit = false) :
      Transition kind pool (.worker p) (pool.setPc p .wait)
  | testPass {p : Nat} (below : p < pool.created) (here : (pool.node p).pc = .test)
      (ready : pool.tasks = [] → (pool.node p).isExit = true) :
      Transition kind pool (.worker p) (pool.setPc p .exitTest)
  | sleep {p : Nat} (below : p < pool.created) (here : (pool.node p).pc = .wait) :
      Transition kind pool (.worker p)
        ({ pool with mutex := pool.mutex.release kind (.worker p) }.setPc p .asleep)
  | reacquire {p : Nat} {mutex : Mutex Thread} (below : p < pool.created)
      (here : (pool.node p).pc = .woken)
      (acquired : pool.mutex.acquire kind (.worker p) = some mutex) :
      Transition kind pool (.worker p) ({ pool with mutex := mutex }.setPc p .test)
  | leave {p : Nat} (below : p < pool.created) (here : (pool.node p).pc = .exitTest)
      (exits : (pool.node p).isExit = true) :
      Transition kind pool (.worker p) (pool.setPc p .exitSignal)
  | stay {p : Nat} (below : p < pool.created) (here : (pool.node p).pc = .exitTest)
      (clear : (pool.node p).isExit = false) :
      Transition kind pool (.worker p) (pool.setPc p .lock)
  | lock {p : Nat} {mutex : Mutex Thread} (below : p < pool.created)
      (here : (pool.node p).pc = .lock)
      (acquired : pool.mutex.acquire kind (.worker p) = some mutex) :
      Transition kind pool (.worker p) ({ pool with mutex := mutex }.setPc p .pop)
  | pop {p : Nat} {worker : WorkerNode} {rest : List WorkerNode} (below : p < pool.created)
      (here : (pool.node p).pc = .pop) (front : pool.tasks = worker :: rest) :
      Transition kind pool (.worker p)
        ({ pool with tasks := rest, taken := pool.taken ++ [worker] }.setPc p (.unlock worker))
  | unlock {p : Nat} {worker : WorkerNode} (below : p < pool.created)
      (here : (pool.node p).pc = .unlock worker) :
      Transition kind pool (.worker p)
        ({ pool with mutex := pool.mutex.release kind (.worker p) }.setPc p (.work worker))
  | work {p : Nat} {worker : WorkerNode} (below : p < pool.created)
      (here : (pool.node p).pc = .work worker) :
      Transition kind pool (.worker p)
        ({ pool with completed := pool.completed ++ [worker] }.setPc p .test)
  | exitSignal {p : Nat} {target : Option Nat} {woken : Pool} (below : p < pool.created)
      (here : (pool.node p).pc = .exitSignal) (signalled : pool.condSignal target = some woken) :
      Transition kind pool (.workerSignal p target) (woken.setPc p .finished)
  | spurious {p : Nat} (sleeps : pool.Asleep p) :
      Transition kind pool (.spurious p) (pool.setPc p .woken)
  | addTask {c : Nat} (node : WorkerNode) (idle : pool.callers c = .idle) :
      Transition kind pool (.addTask c node) (pool.setCaller c (.addLock node))
  | delThread {c : Nat} (threadnum : Int) (idle : pool.callers c = .idle) :
      Transition kind pool (.delThread c threadnum) (pool.setCaller c (.delTest threadnum.toNat))
  | waitAll {c : Nat} (idle : pool.callers c = .idle) :
      Transition kind pool (.waitAll c) (pool.setCaller c (.waitFlag 0))
  | addLock {c : Nat} {node : WorkerNode} {mutex : Mutex Thread}
      (here : pool.callers c = .addLock node)
      (acquired : pool.mutex.acquire kind (.caller c) = some mutex) :
      Transition kind pool (.caller c) ({ pool with mutex := mutex }.setCaller c (.addPush node))
  | addPush {c : Nat} {node : WorkerNode} (here : pool.callers c = .addPush node) :
      Transition kind pool (.caller c)
        ({ pool with tasks := pool.tasks ++ [node], added := pool.added ++ [node] }.setCaller c
          .addSignal)
  | addUnlock {c : Nat} (here : pool.callers c = .addUnlock) :
      Transition kind pool (.caller c)
        ({ pool with mutex := pool.mutex.release kind (.caller c) }.setCaller c .idle)
  | delReturn {c : Nat} (here : pool.callers c = .delTest 0) :
      Transition kind pool (.caller c) (pool.setCaller c .idle)
  | delNone {c left : Nat} (here : pool.callers c = .delTest (left + 1)) (none : pool.threads = []) :
      Transition kind pool (.caller c) (pool.setCaller c (.delTest left))
  | delLast {c left pnode : Nat} (here : pool.callers c = .delTest (left + 1))
      (last : pool.threads.getLast? = some pnode) :
      Transition kind pool (.caller c) (pool.setCaller c (.delFlag pnode left))
  | delFlag {c left pnode : Nat} (here : pool.callers c = .delFlag pnode left) :
      Transition kind pool (.caller c) ((pool.setExit pnode).setCaller c (.delSignal pnode left))
  | delJoin {c left pnode : Nat} {joined : List Nat} (here : pool.callers c = .delJoin pnode left)
      (ended : pnode ∈ pool.joined ∧ joined = pool.joined ∨
        pnode ∉ pool.joined ∧ (pool.node pnode).pc = .finished ∧ joined = pnode :: pool.joined) :
      Transition kind pool (.caller c)
        ({ pool with joined := joined }.setCaller c (.delDelete pnode left))
  | delDelete {c left pnode : Nat} (here : pool.callers c = .delDelete pnode left) :
      Transition kind pool (.caller c)
        ({ pool with deleted := pnode :: pool.deleted, threads := pool.threads.dropLast }.setCaller c
          (.delTest left))
  | waitFlag {c i pnode : Nat} (here : pool.callers c = .waitFlag i)
      (entry : pool.threads[i]? = some pnode) :
      Transition kind pool (.caller c) ((pool.setExit pnode).setCaller c (.waitSignal i))
  | waitFlagged {c i : Nat} (here : pool.callers c = .waitFlag i) (none : pool.threads[i]? = none) :
      Transition kind pool (.caller c) (pool.setCaller c (.waitJoin 0))
  | waitJoin {c i pnode : Nat} {joined : List Nat} (here : pool.callers c = .waitJoin i)
      (entry : pool.threads[i]? = some pnode)
      (ended : pnode ∈ pool.joined ∧ joined = pool.joined ∨
        pnode ∉ pool.joined ∧ (pool.node pnode).pc = .finished ∧ joined = pnode :: pool.joined) :
      Transition kind pool (.caller c)
        ({ pool with joined := joined }.setCaller c (.waitJoin (i + 1)))
  | waitReturn {c i : Nat} (here : pool.callers c = .waitJoin i) (none : pool.threads[i]? = none) :
      Transition kind pool (.caller c) (pool.setCaller c .idle)
  | callerSignal {c : Nat} {target : Option Nat} {woken : Pool} {pc : CallerPc}
      (after : afterSignal (pool.callers c) = some pc)
      (signalled : pool.condSignal target = some woken) :
      Transition kind pool (.callerSignal c target) (woken.setCaller c pc)

theorem workerStep_transition (below : p < pool.created)
    (taken : workerStep kind pool p = some next) : Transition kind pool (.worker p) next := by
  unfold workerStep at taken
  split at taken
  next here =>
    split at taken
    next waits =>
      cases taken
      exact .testWait below here (List.eq_nil_of_length_eq_zero waits.1) (by simpa using waits.2)
    next passes =>
      cases taken
      apply Transition.testPass below here
      intro empty
      by_contra clear
      exact passes ⟨by rw [empty]; rfl, by simpa using clear⟩
  next here =>
    cases taken
    exact .sleep below here
  next => cases taken
  next here =>
    obtain ⟨mutex, acquired, same⟩ := Option.map_eq_some_iff.mp taken
    cases same
    exact .reacquire below here acquired
  next here =>
    split at taken
    next exits =>
      cases taken
      exact .leave below here exits
    next clear =>
      cases taken
      exact .stay below here (by simpa using clear)
  next => cases taken
  next here =>
    obtain ⟨mutex, acquired, same⟩ := Option.map_eq_some_iff.mp taken
    cases same
    exact .lock below here acquired
  next here =>
    split at taken
    next => cases taken
    next worker rest front =>
      cases taken
      exact .pop below here front
  next worker here =>
    cases taken
    exact .unlock below here
  next worker here =>
    cases taken
    exact .work below here
  next => cases taken

theorem join_joined (ended : pool.join p = some next) :
    ∃ joined, next = { pool with joined := joined } ∧
      (p ∈ pool.joined ∧ joined = pool.joined ∨
        p ∉ pool.joined ∧ (pool.node p).pc = .finished ∧ joined = p :: pool.joined) := by
  obtain ⟨_, past | fresh⟩ := join_eq_some.mp ended
  · exact ⟨pool.joined, past.2, Or.inl ⟨past.1, rfl⟩⟩
  · exact ⟨p :: pool.joined, fresh.2.2, Or.inr ⟨fresh.1, fresh.2.1, rfl⟩⟩

theorem callerStep_transition (taken : callerStep kind pool c = some next) :
    Transition kind pool (.caller c) next := by
  unfold callerStep at taken
  split at taken
  next => cases taken
  next node here =>
    obtain ⟨mutex, acquired, same⟩ := Option.map_eq_some_iff.mp taken
    cases same
    exact .addLock here acquired
  next node here =>
    cases taken
    exact .addPush here
  next => cases taken
  next here =>
    cases taken
    exact .addUnlock here
  next here =>
    cases taken
    exact .delReturn here
  next left here =>
    split at taken
    next pnode last =>
      cases taken
      exact .delLast here last
    next none =>
      cases taken
      exact .delNone here (List.getLast?_eq_none_iff.mp none)
  next pnode left here =>
    split at taken
    next => cases taken
    next =>
      cases taken
      exact .delFlag here
  next => cases taken
  next pnode left here =>
    obtain ⟨after, ended, same⟩ := Option.map_eq_some_iff.mp taken
    obtain ⟨joined, result, how⟩ := join_joined ended
    subst result
    cases same
    exact .delJoin here how
  next pnode left here =>
    split at taken
    next => cases taken
    next =>
      cases taken
      exact .delDelete here
  next i here =>
    split at taken
    next pnode entry =>
      split at taken
      next => cases taken
      next =>
        cases taken
        exact .waitFlag here entry
    next none =>
      cases taken
      exact .waitFlagged here none
  next => cases taken
  next i here =>
    split at taken
    next pnode entry =>
      obtain ⟨after, ended, same⟩ := Option.map_eq_some_iff.mp taken
      obtain ⟨joined, result, how⟩ := join_joined ended
      subst result
      cases same
      exact .waitJoin here entry how
    next none =>
      cases taken
      exact .waitReturn here none

theorem call_eq_some {pc : CallerPc} :
    pool.call c pc = some next ↔ pool.callers c = .idle ∧ next = pool.setCaller c pc := by
  by_cases idle : pool.callers c = .idle
  · simp [Pool.call, idle, eq_comm]
  · simp [Pool.call, idle]

theorem step_transition {event : Event} (taken : step kind pool event = some next) :
    Transition kind pool event next := by
  cases event with
  | worker p =>
    simp only [step] at taken
    split at taken
    next below => exact workerStep_transition below taken
    next => cases taken
  | workerSignal p target =>
    simp only [step] at taken
    split at taken
    next ready =>
      obtain ⟨woken, signalled, same⟩ := Option.map_eq_some_iff.mp taken
      cases same
      exact .exitSignal ready.1 ready.2 signalled
    next => cases taken
  | spurious p =>
    simp only [step] at taken
    split at taken
    next sleeps =>
      cases taken
      exact .spurious sleeps
    next => cases taken
  | addTask c node =>
    obtain ⟨idle, same⟩ := call_eq_some.mp taken
    subst same
    exact .addTask node idle
  | delThread c threadnum =>
    obtain ⟨idle, same⟩ := call_eq_some.mp taken
    subst same
    exact .delThread threadnum idle
  | waitAll c =>
    obtain ⟨idle, same⟩ := call_eq_some.mp taken
    subst same
    exact .waitAll idle
  | caller c => exact callerStep_transition taken
  | callerSignal c target =>
    simp only [step] at taken
    split at taken
    next pc after =>
      obtain ⟨woken, signalled, same⟩ := Option.map_eq_some_iff.mp taken
      cases same
      exact .callerSignal after signalled
    next => cases taken

theorem Transition.created {event : Event} (taken : Transition kind pool event next) :
    next.created = pool.created := by
  cases taken with
  | exitSignal below here signalled =>
    obtain ⟨node, same, _⟩ := condSignal_frame signalled
    subst same
    rfl
  | callerSignal after signalled =>
    obtain ⟨node, same, _⟩ := condSignal_frame signalled
    subst same
    rfl
  | _ => rfl

theorem created_along {threadnum : Int} {events : List Event}
    (ran : run (step kind) (Pool.create threadnum) events = some pool) :
    pool.created = threadnum.toNat := by
  have kept : ∀ pool event next, pool.created = threadnum.toNat → step kind pool event = some next →
      next.created = threadnum.toNat :=
    fun _ _ _ before taken => (step_transition taken).created.trans before
  exact run_preserves kept (by rw [create_eq]; rfl) ran

/-- A thread that has left its loop can only finish. -/
theorem Transition.left_stays {event : Event} (taken : Transition kind pool event next)
    (gone : left (pool.node q).pc = true) :
    (next.node q).pc = (pool.node q).pc ∨ (next.node q).pc = .finished := by
  have moves : ∀ {before : Pool} {p : Nat} {pc : WorkerPc}, before.node = pool.node →
      left (pool.node p).pc = false → ((before.setPc p pc).node q).pc = (pool.node q).pc ∨
        ((before.setPc p pc).node q).pc = .finished := by
    intro before p pc same still
    have other : q ≠ p := by
      intro self
      rw [self, still] at gone
      cases gone
    left
    rw [pc_setPc, if_neg other, same]
  have signals : ∀ {node : Nat → ThreadNode}, ((node q).pc = (pool.node q).pc ∨
      (pool.node q).pc = .asleep ∧ (node q).pc = .woken) → (node q).pc = (pool.node q).pc := by
    rintro node (same | ⟨sleeps, _⟩)
    · exact same
    · rw [sleeps] at gone
      cases gone
  cases taken with
  | testWait below here => exact moves rfl (by rw [here]; rfl)
  | testPass below here => exact moves rfl (by rw [here]; rfl)
  | sleep below here => exact moves rfl (by rw [here]; rfl)
  | reacquire below here => exact moves rfl (by rw [here]; rfl)
  | leave below here => exact moves rfl (by rw [here]; rfl)
  | stay below here => exact moves rfl (by rw [here]; rfl)
  | lock below here => exact moves rfl (by rw [here]; rfl)
  | pop below here => exact moves rfl (by rw [here]; rfl)
  | unlock below here => exact moves rfl (by rw [here]; rfl)
  | work below here => exact moves rfl (by rw [here]; rfl)
  | exitSignal below here signalled =>
    obtain ⟨node, same, how⟩ := condSignal_frame signalled
    subst same
    rw [pc_setPc]
    split
    · exact Or.inr rfl
    · exact Or.inl (signals (how q).2)
  | spurious sleeps => exact moves rfl (by rw [sleeps.2]; rfl)
  | @delFlag c left pnode => exact Or.inl (pc_setExit pool pnode q)
  | @waitFlag c i pnode => exact Or.inl (pc_setExit pool pnode q)
  | callerSignal after signalled =>
    obtain ⟨node, same, how⟩ := condSignal_frame signalled
    subst same
    exact Or.inl (signals (how q).2)
  | _ => exact Or.inl rfl

/-- A thread leaves its loop only by the exit test. -/
theorem Transition.left_gained {event : Event} (taken : Transition kind pool event next)
    (gone : left (next.node q).pc = true) :
    left (pool.node q).pc = true ∨
      event = .worker q ∧ (pool.node q).pc = .exitTest ∧ (pool.node q).isExit = true ∧
        next.tasks = pool.tasks := by
  have moves : ∀ {before : Pool} {p : Nat} {pc : WorkerPc}, before.node = pool.node → left pc = false →
      left ((before.setPc p pc).node q).pc = true → left (pool.node q).pc = true := by
    intro before p pc same still gone
    rw [pc_setPc] at gone
    split at gone
    · rw [still] at gone
      cases gone
    · rw [← same]
      exact gone
  have signals : ∀ {node : Nat → ThreadNode}, ((node q).pc = (pool.node q).pc ∨
      (pool.node q).pc = .asleep ∧ (node q).pc = .woken) → left (node q).pc = true →
        left (pool.node q).pc = true := by
    rintro node (same | ⟨_, awake⟩) gone
    · rw [← same]
      exact gone
    · rw [awake] at gone
      cases gone
  cases taken with
  | testWait => exact Or.inl (moves rfl rfl gone)
  | testPass => exact Or.inl (moves rfl rfl gone)
  | sleep => exact Or.inl (moves rfl rfl gone)
  | reacquire => exact Or.inl (moves rfl rfl gone)
  | @leave p below here exits =>
    by_cases self : q = p
    · subst self
      exact Or.inr ⟨rfl, here, exits, rfl⟩
    · rw [pc_setPc, if_neg self] at gone
      exact Or.inl gone
  | stay => exact Or.inl (moves rfl rfl gone)
  | lock => exact Or.inl (moves rfl rfl gone)
  | pop => exact Or.inl (moves rfl rfl gone)
  | unlock => exact Or.inl (moves rfl rfl gone)
  | work => exact Or.inl (moves rfl rfl gone)
  | @exitSignal p _ _ below here signalled =>
    obtain ⟨node, same, how⟩ := condSignal_frame signalled
    subst same
    left
    by_cases self : q = p
    · rw [self, here]
      rfl
    · rw [pc_setPc, if_neg self] at gone
      exact signals (how q).2 gone
  | spurious => exact Or.inl (moves rfl rfl gone)
  | @delFlag c left pnode =>
    left
    rw [← pc_setExit pool pnode q]
    exact gone
  | @waitFlag c i pnode =>
    left
    rw [← pc_setExit pool pnode q]
    exact gone
  | callerSignal after signalled =>
    obtain ⟨node, same, how⟩ := condSignal_frame signalled
    subst same
    exact Or.inl (signals (how q).2 gone)
  | _ => exact Or.inl gone

end

end EasyStressTest.PoolStep
