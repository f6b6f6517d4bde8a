import EasyStressTest.PoolStep

/-!
The pool seen from one worker: where it is in `ThreadProc`, and how often it holds `m_mutex`. All
that the other threads do to these two is to wake the worker, and, where the mutex does not look
at its owner, to release it.
-/

namespace EasyStressTest.Holding
open Execution Threads ThreadPool PoolStep

/-- How often the worker holds `m_mutex`. -/
def holds (pool : Pool) (p : Nat) : Nat := pool.mutex.holds (.worker p)

/-- What the worker finds at its tests, when it goes on from them to these steps. -/
def Finds (pool : Pool) (p : Nat) (event : Event) : WorkerPc → Prop
  | .wait => event = .worker p ∧ pool.tasks = [] ∧ (pool.node p).isExit = false
  | .exitTest => event = .worker p ∧ (pool.tasks = [] → (pool.node p).isExit = true)
  | .exitSignal => event = .worker p ∧ (pool.node p).isExit = true
  | .lock => event = .worker p ∧ (pool.node p).isExit = false
  | _ => True

/-- One step of the pool, as it changes the place of one worker and its hold count. -/
inductive Turn (kind : MutexKind) (finds : WorkerPc → Prop) : WorkerPc → Nat → WorkerPc → Nat → Prop
  | others {pc : WorkerPc} {count less : Nat} (fewer : less ≤ count) : Turn kind finds pc count pc less
  | woken {count : Nat} : Turn kind finds .asleep count .woken count
  | testWait {count : Nat} (found : finds .wait) : Turn kind finds .test count .wait count
  | testPass {count : Nat} (found : finds .exitTest) : Turn kind finds .test count .exitTest count
  | sleep {count : Nat} : Turn kind finds .wait count .asleep (count - 1)
  | reacquire {count : Nat} (free : count = 0 ∨ kind.recursive = true) :
      Turn kind finds .woken count .test (count + 1)
  | leave {count : Nat} (found : finds .exitSignal) : Turn kind finds .exitTest count .exitSignal count
  | stay {count : Nat} (found : finds .lock) : Turn kind finds .exitTest count .lock count
  | lock {count : Nat} (free : count = 0 ∨ kind.recursive = true) :
      Turn kind finds .lock count .pop (count + 1)
  | pop {count : Nat} (worker : WorkerNode) : Turn kind finds .pop count (.unlock worker) count
  | unlock {count : Nat} (worker : WorkerNode) :
      Turn kind finds (.unlock worker) count (.work worker) (count - 1)
  | work {count : Nat} (worker : WorkerNode) : Turn kind finds (.work worker) count .test count
  | exitSignal {count : Nat} : Turn kind finds .exitSignal count .finished count

/-- A predicate of all workers, by their place and their hold count. -/
def Everywhere (At : WorkerPc → Nat → Prop) (pool : Pool) : Prop :=
  ∀ p < pool.created, At (pool.node p).pc (holds pool p)

section
variable {kind : MutexKind} {pool next woken : Pool} {p q c : Nat} {target : Option Nat} {event : Event}
  {finds : WorkerPc → Prop}

/-- A worker goes on, this one or another. -/
theorem turn_setPc {before pc : WorkerPc} (here : (pool.node p).pc = before)
    (own : q = p → Turn kind finds before (holds pool p) pc (holds next p))
    (less : q ≠ p → holds next q ≤ holds pool q) (moved : Moved p pc pool next) :
    Turn kind finds (pool.node q).pc (holds pool q) (next.node q).pc (holds next q) := by
  rw [moved.node, pc_setPc]
  by_cases self : q = p
  · rw [if_pos self, self, here]
    exact own self
  · rw [if_neg self]
    exact .others (less self)

/-- A step that leaves all workers where they are. -/
theorem turn_still (nodes : (next.node q).pc = (pool.node q).pc)
    (less : holds next q ≤ holds pool q) :
    Turn kind finds (pool.node q).pc (holds pool q) (next.node q).pc (holds next q) := by
  rw [nodes]
  exact .others less

/-- A signal. -/
theorem turn_condSignal (signalled : pool.condSignal target = some woken) :
    Turn kind finds (pool.node q).pc (holds pool q) (woken.node q).pc (holds woken q) := by
  obtain ⟨node, same, how⟩ := condSignal_frame signalled
  subst same
  rcases (how q).2 with unchanged | ⟨sleeps, awake⟩
  · exact turn_still unchanged (Nat.le_refl _)
  · simp only [sleeps, awake]
    exact .woken

/-- What a step of the pool is for any of its workers. -/
theorem turn_of_transition (taken : Transition kind pool event next) (q : Nat) :
    Turn kind (Finds pool q event) (pool.node q).pc (holds pool q) (next.node q).pc (holds next q) := by
  have same : ∀ {p : Nat}, q ≠ p → holds pool q ≤ holds pool q := fun _ => Nat.le_refl _
  have acquires : ∀ {p : Nat} {mutex : Mutex Thread}, pool.mutex.acquire kind (.worker p) = some mutex →
      q ≠ p → mutex.holds (.worker q) ≤ holds pool q := by
    intro p mutex acquired other
    apply Nat.le_of_eq
    apply holds_acquire_other acquired
    exact fun self => other (Thread.worker.inj self).symm
  have releases : ∀ {p : Nat}, q ≠ p →
      (pool.mutex.release kind (.worker p)).holds (.worker q) ≤ holds pool q :=
    fun _ => holds_release_le kind pool.mutex _ _
  cases taken with
  | testWait below here empty clear =>
    refine turn_setPc here (fun self => .testWait ?_) same moved_setPc
    subst self
    exact ⟨rfl, empty, clear⟩
  | testPass below here ready =>
    refine turn_setPc here (fun self => .testPass ?_) same moved_setPc
    subst self
    exact ⟨rfl, ready⟩
  | @sleep p below here =>
    refine turn_setPc here (fun _ => ?_) releases moved_setPc
    change Turn _ _ _ _ _ ((pool.mutex.release kind (.worker p)).holds (.worker p))
    rw [holds_release]
    exact .sleep
  | @reacquire p mutex below here acquired =>
    refine turn_setPc here (fun _ => ?_) (acquires acquired) moved_setPc
    obtain ⟨more, free⟩ := holds_acquire acquired
    change Turn _ _ _ _ _ (mutex.holds (.worker p))
    rw [more]
    exact .reacquire free
  | leave below here told =>
    refine turn_setPc here (fun self => .leave ?_) same moved_setPc
    subst self
    exact ⟨rfl, told⟩
  | stay below here clear =>
    refine turn_setPc here (fun self => .stay ?_) same moved_setPc
    subst self
    exact ⟨rfl, clear⟩
  | @lock p mutex below here acquired =>
    refine turn_setPc here (fun _ => ?_) (acquires acquired) moved_setPc
    obtain ⟨more, free⟩ := holds_acquire acquired
    change Turn _ _ _ _ _ (mutex.holds (.worker p))
    rw [more]
    exact .lock free
  | @pop p worker rest below here => exact turn_setPc here (fun _ => .pop worker) same moved_setPc
  | @unlock p worker below here =>
    refine turn_setPc here (fun _ => ?_) releases moved_setPc
    change Turn _ _ _ _ _ ((pool.mutex.release kind (.worker p)).holds (.worker p))
    rw [holds_release]
    exact .unlock worker
  | @work p worker below here => exact turn_setPc here (fun _ => .work worker) same moved_setPc
  | @exitSignal p target woken below here signalled =>
    obtain ⟨node, result, how⟩ := condSignal_frame signalled
    subst result
    by_cases self : q = p
    · subst self
      rw [pc_setPc, if_pos rfl, here]
      exact .exitSignal
    · rw [pc_setPc, if_neg self]
      exact turn_condSignal signalled
  | spurious sleeps => exact turn_setPc sleeps.2 (fun _ => .woken) same moved_setPc
  | addLock here acquired =>
    exact turn_still rfl (Nat.le_of_eq (holds_acquire_other acquired (by simp)))
  | addUnlock here => exact turn_still rfl (holds_release_le kind pool.mutex _ _)
  | @delFlag c left pnode => exact turn_still (pc_setExit pool pnode q) (Nat.le_refl _)
  | @waitFlag c i pnode => exact turn_still (pc_setExit pool pnode q) (Nat.le_refl _)
  | @callerSignal c target woken pc after signalled =>
    change Turn _ _ _ _ (woken.node q).pc (holds woken q)
    exact turn_condSignal signalled
  | _ => exact turn_still rfl (Nat.le_refl _)

/-- What every turn of a worker keeps, every step of the pool keeps for all of them. -/
theorem everywhere_step {At : WorkerPc → Nat → Prop} (everywhere : Everywhere At pool)
    (kept : ∀ p < pool.created, ∀ pc count, Turn kind (Finds pool p event) (pool.node p).pc (holds pool p) pc count →
      At (pool.node p).pc (holds pool p) → At pc count)
    (taken : Transition kind pool event next) : Everywhere At next := by
  intro p below
  rw [taken.created] at below
  exact kept p below _ _ (turn_of_transition taken p) (everywhere p below)

theorem everywhere_create {At : WorkerPc → Nat → Prop} (initially : At .test 0) (threadnum : Int) :
    Everywhere At (Pool.create threadnum) := by
  rw [create_eq]
  exact fun p _ => initially

end

end EasyStressTest.Holding
