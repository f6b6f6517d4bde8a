import EasyStressTest.Dispatch
import EasyStressTest.Holding

/-!
Lost wake-ups. All workers sleep on one condition variable, some for a task and some to be told
to exit, and they test for both without the mutex. A signal can come before the worker sleeps that
it is meant for, or wake another one.
-/

namespace EasyStressTest.Wakeup
open Execution Threads ThreadPool PoolStep Dispatch Holding

/-- The thread that a caller is about to join. -/
def joining (pool : Pool) (c : Nat) : Option Nat :=
  match pool.callers c with
  | .delJoin pnode _ => some pnode
  | .waitJoin i => pool.threads[i]?
  | _ => none

/-- Asleep in `uv_cond_wait`, or past the end of `ThreadProc`. -/
def Resting (pool : Pool) (p : Nat) : Prop :=
  (pool.node p).pc = .asleep ∨ (pool.node p).pc = .finished

/-- Resting, or waiting for the mutex. -/
def Halted (kind : MutexKind) (pool : Pool) (p : Nat) : Prop :=
  Resting pool p ∨
    ((pool.node p).pc = .woken ∨ (pool.node p).pc = .lock) ∧ pool.mutex.acquire kind (.worker p) = none

/-- No worker goes on, and every caller has returned or waits in a join, while a worker sleeps
for a task that is there or for the exit that a caller waits for. -/
structure Stuck (Still : Pool → Nat → Prop) (pool : Pool) : Prop where
  workers : ∀ p < pool.created, Still pool p
  callers : ∀ c, pool.callers c = .idle ∨ ∃ p, joining pool c = some p ∧ pool.join p = none
  lost : (pool.tasks ≠ [] ∧ ∃ p, pool.Asleep p) ∨
    ∃ c p, joining pool c = some p ∧ (pool.node p).isExit = true ∧ pool.Asleep p

/-- A signal wakes a thread that was told to exit, when one sleeps. -/
def Aimed (pool : Pool) : Option Nat → Prop
  | some q => (pool.node q).isExit = true ∨ ∀ p, pool.Asleep p → (pool.node p).isExit = false
  | none => True

/-- What a worker tested is still so when it falls asleep, and signals are aimed. -/
def Mindful (pool : Pool) : Event → Prop
  | .worker p => (pool.node p).pc = .wait → pool.tasks = [] ∧ (pool.node p).isExit = false
  | .workerSignal _ target => Aimed pool target
  | .callerSignal _ target => Aimed pool target
  | _ => True

instance (pool : Pool) (target : Option Nat) : Decidable (Aimed pool target) :=
  match target with
  | some q =>
      decidable_of_iff
        ((pool.node q).isExit = true ∨
          ∀ p < pool.created, (pool.node p).pc = .asleep → (pool.node p).isExit = false)
        (or_congr_right
          ⟨fun clear p sleeps => clear p sleeps.1 sleeps.2, fun clear p below here => clear p ⟨below, here⟩⟩)
  | none => isTrue trivial

instance (pool : Pool) (event : Event) : Decidable (Mindful pool event) :=
  match event with
  | .worker _ => inferInstanceAs (Decidable (_ → _ ∧ _))
  | .workerSignal _ _ => inferInstanceAs (Decidable (Aimed _ _))
  | .callerSignal _ _ => inferInstanceAs (Decidable (Aimed _ _))
  | .spurious _ => isTrue trivial
  | .addTask _ _ => isTrue trivial
  | .delThread _ _ => isTrue trivial
  | .waitAll _ => isTrue trivial
  | .caller _ => isTrue trivial

/-- No worker leaves its loop with the mutex, or locks a mutex that it has and cannot lock again. -/
def Disciplined (kind : MutexKind) (pool : Pool) : Event → Prop
  | .worker p =>
      (pool.node p).pc = .exitTest →
        pool.mutex.holds (.worker p) = 0 ∨ (pool.node p).isExit = false ∧ kind.recursive = true
  | _ => True

instance (kind : MutexKind) (pool : Pool) (event : Event) : Decidable (Disciplined kind pool event) :=
  match event with
  | .worker _ => inferInstanceAs (Decidable (_ → _ ∨ _))
  | .workerSignal _ _ => isTrue trivial
  | .callerSignal _ _ => isTrue trivial
  | .spurious _ => isTrue trivial
  | .addTask _ _ => isTrue trivial
  | .delThread _ _ => isTrue trivial
  | .waitAll _ => isTrue trivial
  | .caller _ => isTrue trivial

section
variable {kind : MutexKind} {pool next woken : Pool} {p q c : Nat} {target : Option Nat} {event : Event}

/-! Someone who will see to a sleeper. -/

def awake : WorkerPc → Bool
  | .asleep => false
  | .finished => false
  | _ => true

/-- A caller is about to signal. -/
def Calling (pool : Pool) : Prop := ∃ c, (afterSignal (pool.callers c)).isSome = true

/-- When a thread sleeps that was told to exit, a signal is still to come from a caller or from
another that was told to; and when one sleeps while there are tasks, another is awake. -/
structure Attended (pool : Pool) : Prop where
  exiting : ∀ p, pool.Asleep p → (pool.node p).isExit = true →
    Calling pool ∨ ∃ q < pool.created, awake (pool.node q).pc = true ∧ (pool.node q).isExit = true
  working : ∀ p, pool.Asleep p → pool.tasks ≠ [] →
    Calling pool ∨ ∃ q < pool.created, awake (pool.node q).pc = true

/-- A worker goes on, from one step to another. -/
theorem Attended.moves (attended : Attended pool) (pc : WorkerPc) (up : awake pc = true)
    (moved : Moved p pc pool next) (tasks : next.tasks ≠ [] → pool.tasks ≠ []) : Attended next := by
  obtain ⟨_, created, _, node, callers⟩ := moved
  have slept : ∀ q, next.Asleep q → pool.Asleep q := by
    rintro q ⟨below, sleeps⟩
    rw [node, pc_setPc] at sleeps
    split at sleeps
    · rw [sleeps] at up
      cases up
    · exact ⟨by rw [← created]; exact below, sleeps⟩
  have flags : ∀ q, (next.node q).isExit = (pool.node q).isExit := by
    intro q
    rw [node, isExit_setPc]
  have calling : Calling pool → Calling next := by
    rintro ⟨c, signals⟩
    exact ⟨c, by rw [callers]; exact signals⟩
  have rises : ∀ q, awake (pool.node q).pc = true → awake (next.node q).pc = true := by
    intro q rises
    rw [node, pc_setPc]
    split
    · exact up
    · exact rises
  refine ⟨?_, ?_⟩
  · intro q sleeps exits
    rw [flags] at exits
    rcases attended.exiting q (slept q sleeps) exits with signals | ⟨r, below, up, exits⟩
    · exact Or.inl (calling signals)
    · exact Or.inr ⟨r, by rw [created]; exact below, rises r up, by rw [flags]; exact exits⟩
  · intro q sleeps some_task
    rcases attended.working q (slept q sleeps) (tasks some_task) with signals | ⟨r, below, up⟩
    · exact Or.inl (calling signals)
    · exact Or.inr ⟨r, by rw [created]; exact below, rises r up⟩

/-- A caller goes on from a step that is not a signal. -/
theorem Attended.calls (attended : Attended pool) (pc : CallerPc)
    (quiet : afterSignal (pool.callers c) = none) (called : Called c pc pool next)
    (tasks : next.tasks = pool.tasks) : Attended next := by
  obtain ⟨created, node, callers⟩ := called
  have slept : ∀ q, next.Asleep q ↔ pool.Asleep q := by
    intro q
    rw [Pool.Asleep, Pool.Asleep, node, created]
  have calling : Calling pool → Calling next := by
    rintro ⟨d, signals⟩
    refine ⟨d, ?_⟩
    have other : d ≠ c := by
      intro self
      rw [self, quiet] at signals
      cases signals
    rw [callers, callers_setCaller, if_neg other]
    exact signals
  refine ⟨?_, ?_⟩
  · intro q sleeps exits
    rw [node] at exits
    rw [node, created]
    exact (attended.exiting q ((slept q).mp sleeps) exits).imp_left calling
  · intro q sleeps some_task
    rw [tasks] at some_task
    rw [node, created]
    exact (attended.working q ((slept q).mp sleeps) some_task).imp_left calling

/-- A caller that is about to signal attends to everyone. -/
theorem attended_of_calling (calling : Calling pool) : Attended pool :=
  ⟨fun _ _ _ => Or.inl calling, fun _ _ _ => Or.inl calling⟩

/-- An aimed signal attends to everyone: the thread that it wakes was told to exit, when a sleeper
was. -/
theorem attended_of_signal (signalled : pool.condSignal target = some woken) (aimed : Aimed pool target)
    (created : next.created = woken.created)
    (still : ∀ q, (next.node q).isExit = (woken.node q).isExit ∧
      ((next.node q).pc = (woken.node q).pc ∨
        (pool.node q).pc = .exitSignal ∧ (next.node q).pc = .finished)) : Attended next := by
  rcases condSignal_eq_some.mp signalled with ⟨q, same, sleeps, result⟩ | ⟨same, nobody, result⟩
  · subst same result
    have slept : ∀ r, next.Asleep r → pool.Asleep r := by
      rintro r ⟨below, sleeping⟩
      refine ⟨by rw [created] at below; exact below, ?_⟩
      rcases (still r).2 with unchanged | ⟨_, finished⟩
      · rw [unchanged, pc_setPc] at sleeping
        split at sleeping
        · cases sleeping
        · exact sleeping
      · rw [finished] at sleeping
        cases sleeping
    have below : q < next.created := by
      rw [created]
      exact sleeps.1
    have up : awake (next.node q).pc = true := by
      rcases (still q).2 with unchanged | ⟨leaves, _⟩
      · rw [unchanged, pc_setPc, if_pos rfl]
        rfl
      · rw [sleeps.2] at leaves
        cases leaves
    have flags : ∀ r, (next.node r).isExit = (pool.node r).isExit := by
      intro r
      rw [(still r).1, isExit_setPc]
    refine ⟨?_, fun _ _ _ => Or.inr ⟨q, below, up⟩⟩
    intro r sleeping exits
    rw [flags] at exits
    rcases aimed with told | untold
    · exact Or.inr ⟨q, below, up, by rw [flags]; exact told⟩
    · rw [untold r (slept r sleeping)] at exits
      cases exits
  · subst same result
    have none_sleeps : ∀ r, ¬next.Asleep r := by
      rintro r ⟨below, sleeping⟩
      rw [created] at below
      rcases (still r).2 with unchanged | ⟨_, finished⟩
      · rw [unchanged] at sleeping
        exact nobody r below ⟨below, sleeping⟩
      · rw [finished] at sleeping
        cases sleeping
    exact ⟨fun r sleeping => absurd sleeping (none_sleeps r),
      fun r sleeping => absurd sleeping (none_sleeps r)⟩

/-- A worker that was not told to exit falls asleep while there is no task. -/
theorem Attended.sleeps (attended : Attended pool) (empty : pool.tasks = [])
    (clear : (pool.node p).isExit = false) (moved : Moved p .asleep pool next)
    (tasks : next.tasks = pool.tasks) : Attended next := by
  obtain ⟨_, created, _, node, callers⟩ := moved
  refine ⟨?_, fun _ _ some_task => absurd (tasks.trans empty) some_task⟩
  rintro q ⟨below, sleeping⟩ exits
  rw [node, isExit_setPc] at exits
  have other : q ≠ p := by
    intro self
    rw [self, clear] at exits
    cases exits
  rw [node, pc_setPc, if_neg other] at sleeping
  rw [created] at below
  rcases attended.exiting q ⟨below, sleeping⟩ exits with ⟨c, signals⟩ | ⟨r, inside, up, told⟩
  · exact Or.inl ⟨c, by rw [callers]; exact signals⟩
  · have distinct : r ≠ p := by
      intro self
      rw [self, clear] at told
      cases told
    refine Or.inr ⟨r, by rw [created]; exact inside, ?_, ?_⟩
    · rw [node, pc_setPc, if_neg distinct]
      exact up
    · rw [node, isExit_setPc]
      exact told

theorem Attended.step (attended : Attended pool) (mindful : Mindful pool event)
    (taken : Transition kind pool event next) : Attended next := by
  have quiet : ∀ {c : Nat} {pc : CallerPc}, pool.callers c = pc → afterSignal pc = none →
      afterSignal (pool.callers c) = none := by
    intro c pc here none
    rw [here, none]
  cases taken with
  | testWait => exact attended.moves .wait rfl moved_setPc id
  | testPass => exact attended.moves .exitTest rfl moved_setPc id
  | sleep below here =>
    obtain ⟨empty, clear⟩ := mindful here
    exact attended.sleeps empty clear moved_setPc rfl
  | reacquire => exact attended.moves .test rfl moved_setPc id
  | leave => exact attended.moves .exitSignal rfl moved_setPc id
  | stay => exact attended.moves .lock rfl moved_setPc id
  | lock => exact attended.moves .pop rfl moved_setPc id
  | @pop p worker rest below here front =>
    have shrinks : rest ≠ [] → pool.tasks ≠ [] := by
      rw [front]
      exact fun _ => List.cons_ne_nil _ _
    exact attended.moves (.unlock worker) rfl moved_setPc shrinks
  | @unlock p worker => exact attended.moves (.work worker) rfl moved_setPc id
  | work => exact attended.moves .test rfl moved_setPc id
  | @exitSignal p target woken below here signalled =>
    have created : (woken.setPc p .finished).created = woken.created := rfl
    apply attended_of_signal signalled mindful created
    intro q
    refine ⟨isExit_setPc woken p q .finished, ?_⟩
    by_cases self : q = p
    · subst self
      exact Or.inr ⟨here, by simp⟩
    · exact Or.inl (by simp [self])
  | spurious => exact attended.moves .woken rfl moved_setPc id
  | addTask node idle => exact attended.calls (.addLock node) (quiet idle rfl) called_setCaller rfl
  | delThread threadnum idle => exact attended.calls (.delTest _) (quiet idle rfl) called_setCaller rfl
  | waitAll idle => exact attended.calls (.waitFlag 0) (quiet idle rfl) called_setCaller rfl
  | @addLock c node _ here => exact attended.calls (.addPush node) (quiet here rfl) called_setCaller rfl
  | @addPush c => exact attended_of_calling ⟨c, by simp [afterSignal]⟩
  | addUnlock here => exact attended.calls .idle (quiet here rfl) called_setCaller rfl
  | delReturn here => exact attended.calls .idle (quiet here rfl) called_setCaller rfl
  | delNone here => exact attended.calls (.delTest _) (quiet here rfl) called_setCaller rfl
  | delLast here => exact attended.calls (.delFlag _ _) (quiet here rfl) called_setCaller rfl
  | @delFlag c => exact attended_of_calling ⟨c, by simp [afterSignal]⟩
  | delJoin here => exact attended.calls (.delDelete _ _) (quiet here rfl) called_setCaller rfl
  | delDelete here => exact attended.calls (.delTest _) (quiet here rfl) called_setCaller rfl
  | @waitFlag c => exact attended_of_calling ⟨c, by simp [afterSignal]⟩
  | waitFlagged here => exact attended.calls (.waitJoin 0) (quiet here rfl) called_setCaller rfl
  | waitJoin here => exact attended.calls (.waitJoin _) (quiet here rfl) called_setCaller rfl
  | waitReturn here => exact attended.calls .idle (quiet here rfl) called_setCaller rfl
  | callerSignal after signalled =>
    exact attended_of_signal signalled mindful rfl fun q => ⟨rfl, Or.inl rfl⟩

theorem attended_create (threadnum : Int) : Attended (Pool.create threadnum) := by
  rw [create_eq]
  have nobody : ∀ p, ¬(fresh threadnum.toNat).Asleep p := by
    rintro p ⟨_, sleeps⟩
    cases sleeps
  exact ⟨fun p sleeps => absurd sleeps (nobody p), fun p sleeps => absurd sleeps (nobody p)⟩

theorem Attended.not_stuck (attended : Attended pool) : ¬Stuck Resting pool := by
  intro stuck
  have silent : ¬Calling pool := by
    rintro ⟨c, signals⟩
    rcases stuck.callers c with idle | ⟨p, joins, _⟩
    · rw [idle] at signals
      cases signals
    · cases here : pool.callers c <;> simp_all [joining, afterSignal]
  have down : ∀ q < pool.created, awake (pool.node q).pc = false := by
    intro q below
    rcases stuck.workers q below with asleep | finished
    · rw [asleep]
      rfl
    · rw [finished]
      rfl
  rcases stuck.lost with ⟨some_task, p, sleeps⟩ | ⟨c, p, _, exits, sleeps⟩
  · rcases attended.working p sleeps some_task with calling | ⟨q, below, up⟩
    · exact silent calling
    · rw [down q below] at up
      cases up
  · rcases attended.exiting p sleeps exits with calling | ⟨q, below, up, _⟩
    · exact silent calling
    · rw [down q below] at up
      cases up

/-! The mutex. -/

/-- Where a worker can be while it holds the mutex `again` times more than once. -/
def Keeps (kind : MutexKind) : WorkerPc → Nat → Prop
  | .test, again => again = 0
  | .wait, again => again = 0
  | .exitTest, again => again = 0
  | .lock, again => again = 0 ∧ kind.recursive = true
  | .pop, again => again ≤ 1
  | .unlock _, again => again ≤ 1
  | .work _, again => again = 0
  | _, _ => False

/-- The owner of the mutex is on its way to release it. -/
structure Guarded (kind : MutexKind) (pool : Pool) : Prop where
  worker : ∀ p again, pool.mutex = .held (.worker p) again →
    p < pool.created ∧ Keeps kind (pool.node p).pc again
  caller : ∀ c again, pool.mutex = .held (.caller c) again →
    again = 0 ∧ pushes (pool.callers c) = true

theorem pushes_afterSignal {before after : CallerPc} (signals : afterSignal before = some after)
    (holds : pushes before = true) : pushes after = true := by
  cases before with
  | addSignal =>
    cases signals
    rfl
  | delSignal => cases holds
  | waitSignal => cases holds
  | _ => cases signals

theorem keeps_mono {pc : WorkerPc} {again more : Nat} (fewer : again ≤ more) (keeps : Keeps kind pc more) :
    Keeps kind pc again := by
  cases pc <;> simp_all [Keeps]
  all_goals omega

/-- A turn of a worker keeps to what it can hold, when it does not leave with the mutex and locks
it only where it can. -/
theorem keeps_turn {finds : WorkerPc → Prop} {pc pc' : WorkerPc} {count count' again : Nat}
    (keeps : ∀ again, count = again + 1 → Keeps kind pc again)
    (leaves : pc = .exitTest → finds .exitSignal → count = 0)
    (stays : pc = .exitTest → finds .lock → count = 0 ∨ kind.recursive = true)
    (turn : Turn kind finds pc count pc' count') (held : count' = again + 1) : Keeps kind pc' again := by
  cases turn with
  | others fewer => exact keeps_mono (by omega) (keeps (count - 1) (by omega))
  | woken => exact (keeps again held).elim
  | testWait => exact keeps again held
  | testPass => exact keeps again held
  | sleep => cases keeps (again + 1) (by omega)
  | reacquire =>
    cases count with
    | zero => exact (Nat.succ.inj held).symm
    | succ more => exact (keeps more rfl).elim
  | leave found =>
    have none := leaves rfl found
    omega
  | stay found =>
    refine ⟨keeps again held, ?_⟩
    rcases stays rfl found with none | twice
    · omega
    · exact twice
  | lock =>
    cases count with
    | zero => exact Nat.le_trans (Nat.le_of_eq (Nat.succ.inj held).symm) (Nat.zero_le 1)
    | succ more =>
      have once := (keeps more rfl).1
      exact Nat.le_of_eq (by omega)
  | pop => exact keeps again held
  | unlock =>
    have twice := keeps (again + 1) (by omega)
    exact Nat.le_zero.mp (Nat.le_of_succ_le_succ twice)
  | work => exact keeps again held
  | exitSignal => exact (keeps again held).elim

/-- The owner of the mutex is a worker of the pool, or a caller within `AddTask`. -/
structure Owned (pool : Pool) : Prop where
  worker : ∀ p again, pool.mutex = .held (.worker p) again → p < pool.created
  caller : ∀ c again, pool.mutex = .held (.caller c) again →
    again = 0 ∧ pushes (pool.callers c) = true

theorem Guarded.owned (guarded : Guarded kind pool) : Owned pool :=
  ⟨fun p again held => (guarded.worker p again held).1, guarded.caller⟩

/-- The mutex does not change hands, and its owner among the callers stays within `AddTask`. -/
theorem Owned.stays (owned : Owned pool) (created : next.created = pool.created) (mutex : next.mutex = pool.mutex)
    (still : ∀ c, pushes (pool.callers c) = true → pushes (next.callers c) = true) : Owned next := by
  refine ⟨?_, ?_⟩
  · intro p again held
    rw [mutex] at held
    rw [created]
    exact owned.worker p again held
  · intro c again held
    rw [mutex] at held
    obtain ⟨once, holds⟩ := owned.caller c again held
    exact ⟨once, still c holds⟩

theorem Owned.calls (owned : Owned pool) (pc : CallerPc)
    (keeps : pushes (pool.callers c) = true → pushes pc = true)
    (called : Called c pc pool next) (mutex : next.mutex = pool.mutex) : Owned next := by
  refine owned.stays called.created mutex ?_
  intro d holds
  rw [called.callers, callers_setCaller]
  split
  · next self =>
    rw [self] at holds
    exact keeps holds
  · exact holds

theorem Owned.releases {thread : Thread} (owned : Owned pool) (created : next.created = pool.created)
    (mutex : next.mutex = pool.mutex.release kind thread)
    (still : ∀ c, .caller c ≠ thread → next.callers c = pool.callers c) : Owned next := by
  refine ⟨?_, ?_⟩
  · intro p again held
    rw [mutex] at held
    rw [created]
    rcases release_eq_held held with ⟨before, _⟩ | before
    · exact owned.worker p _ before
    · exact owned.worker p _ before
  · intro c again held
    rw [mutex] at held
    rcases release_eq_held held with ⟨before, other⟩ | before
    · rw [still c other]
      exact owned.caller c again before
    · have once := (owned.caller c _ before).1
      omega

theorem owned_acquires {mutex : Mutex Thread} (below : p < next.created)
    (acquired : pool.mutex.acquire kind (.worker p) = some mutex) (changed : next.mutex = mutex) : Owned next := by
  have owner : ∃ again, next.mutex = .held (.worker p) again := by
    rw [changed]
    rcases acquire_eq_some.mp acquired with ⟨_, same⟩ | ⟨again, _, _, same⟩
    · exact ⟨0, same⟩
    · exact ⟨again + 1, same⟩
  obtain ⟨again, held⟩ := owner
  refine ⟨fun q again' held' => ?_, fun c again' held' => ?_⟩
  · cases held.symm.trans held'
    exact below
  · cases held.symm.trans held'

theorem Owned.step (owned : Owned pool) (taken : Transition kind pool event next) : Owned next := by
  have empty_handed : ∀ {c : Nat} {pc pc' : CallerPc}, pool.callers c = pc → pushes pc = false →
      pushes (pool.callers c) = true → pushes pc' = true := by
    intro c pc pc' here none holds
    rw [here, none] at holds
    cases holds
  cases taken with
  | sleep => exact owned.releases rfl rfl fun _ _ => rfl
  | unlock => exact owned.releases rfl rfl fun _ _ => rfl
  | @reacquire p mutex below here acquired =>
    have inside : p < ({ pool with mutex := mutex }.setPc p .test).created := below
    exact owned_acquires inside acquired rfl
  | @lock p mutex below here acquired =>
    have inside : p < ({ pool with mutex := mutex }.setPc p .pop).created := below
    exact owned_acquires inside acquired rfl
  | exitSignal below here signalled =>
    obtain ⟨node, same, _⟩ := condSignal_frame signalled
    subst same
    exact owned.stays rfl rfl fun _ holds => holds
  | addTask node idle => exact owned.calls (.addLock node) (empty_handed idle rfl) called_setCaller rfl
  | delThread threadnum idle => exact owned.calls (.delTest _) (empty_handed idle rfl) called_setCaller rfl
  | waitAll idle => exact owned.calls (.waitFlag 0) (empty_handed idle rfl) called_setCaller rfl
  | @addLock c node mutex here acquired =>
    rcases acquire_eq_some.mp acquired with ⟨_, same⟩ | ⟨again, held, _, _⟩
    · subst same
      refine ⟨fun p again held => ?_, ?_⟩
      · cases held
      · intro d again held
        cases held
        rw [callers_setCaller, if_pos rfl]
        exact ⟨rfl, rfl⟩
    · have holds := (owned.caller c again held).2
      rw [here] at holds
      cases holds
  | addPush => exact owned.calls .addSignal (fun _ => rfl) called_setCaller rfl
  | @addUnlock c here =>
    refine owned.releases rfl rfl ?_
    intro d other
    rw [callers_setCaller, if_neg fun self => other (by rw [self])]
  | delReturn here => exact owned.calls .idle (empty_handed here rfl) called_setCaller rfl
  | delNone here => exact owned.calls (.delTest _) (empty_handed here rfl) called_setCaller rfl
  | delLast here => exact owned.calls (.delFlag _ _) (empty_handed here rfl) called_setCaller rfl
  | delJoin here => exact owned.calls (.delDelete _ _) (empty_handed here rfl) called_setCaller rfl
  | delDelete here => exact owned.calls (.delTest _) (empty_handed here rfl) called_setCaller rfl
  | @delFlag c left pnode here =>
    have flagged : Owned (pool.setExit pnode) := owned.stays rfl rfl fun _ holds => holds
    exact flagged.calls (.delSignal _ _) (empty_handed here rfl) called_setCaller rfl
  | @waitFlag c i pnode here =>
    have flagged : Owned (pool.setExit pnode) := owned.stays rfl rfl fun _ holds => holds
    exact flagged.calls (.waitSignal _) (empty_handed here rfl) called_setCaller rfl
  | waitFlagged here => exact owned.calls (.waitJoin 0) (empty_handed here rfl) called_setCaller rfl
  | waitJoin here => exact owned.calls (.waitJoin _) (empty_handed here rfl) called_setCaller rfl
  | waitReturn here => exact owned.calls .idle (empty_handed here rfl) called_setCaller rfl
  | @callerSignal c target woken pc after signalled =>
    obtain ⟨node, same, _⟩ := condSignal_frame signalled
    subst same
    have still : Owned { pool with node := node } := owned.stays rfl rfl fun _ holds => holds
    exact still.calls pc (pushes_afterSignal after) called_setCaller rfl
  | _ => exact owned.stays rfl rfl fun _ holds => holds

theorem Guarded.step (guarded : Guarded kind pool) (disciplined : Disciplined kind pool event)
    (taken : Transition kind pool event next) : Guarded kind next := by
  have owned := guarded.owned.step taken
  refine ⟨?_, owned.caller⟩
  intro p again held
  refine ⟨owned.worker p again held, ?_⟩
  have keeps : ∀ again, holds pool p = again + 1 → Keeps kind (pool.node p).pc again := by
    intro again count
    obtain ⟨more, held⟩ := holds_pos.mp (show 0 < holds pool p by omega)
    have same : more = again := by simpa [holds, held] using count
    rw [← same]
    exact (guarded.worker p more held).2
  have count : holds next p = again + 1 := by simp [holds, held]
  refine keeps_turn keeps ?_ ?_ (turn_of_transition taken p) count
  · rintro here ⟨same, exits⟩
    subst same
    rcases disciplined here with none | ⟨clear, _⟩
    · exact none
    · rw [exits] at clear
      cases clear
  · rintro here ⟨same, _⟩
    subst same
    exact (disciplined here).imp_right And.right

theorem guarded_create (threadnum : Int) : Guarded kind (Pool.create threadnum) := by
  rw [create_eq]
  refine ⟨fun p again held => ?_, fun c again held => ?_⟩
  · cases held
  · cases held

/-- In a stuck pool no worker waits for the mutex. -/
theorem Guarded.resting (guarded : Guarded kind pool) (stuck : Stuck (Halted kind) pool) :
    Stuck Resting pool := by
  refine ⟨?_, stuck.callers, stuck.lost⟩
  intro p below
  rcases stuck.workers p below with resting | ⟨_, blocked⟩
  · exact resting
  · obtain ⟨owner, again, held, other⟩ := acquire_eq_none.mp blocked
    exfalso
    cases owner with
    | caller c =>
      have holds := (guarded.caller c again held).2
      rcases stuck.callers c with idle | ⟨q, joins, _⟩
      · rw [idle] at holds
        cases holds
      · cases here : pool.callers c <;> simp_all [joining, pushes]
    | worker q =>
      obtain ⟨inside, keeps⟩ := guarded.worker q again held
      rcases stuck.workers q inside with (asleep | finished) | ⟨woken | locks, waits⟩
      · rw [asleep] at keeps
        exact keeps
      · rw [finished] at keeps
        exact keeps
      · rw [woken] at keeps
        exact keeps
      · rw [locks] at keeps
        obtain ⟨owner, more, same, another⟩ := acquire_eq_none.mp waits
        rw [held] at same
        cases same
        exact another ⟨rfl, keeps.2⟩

/-! A task that nobody wakes up for. -/

/-- The first `k` workers are at this step, the others where they were. -/
def staged (pool : Pool) (pc : WorkerPc) (k : Nat) : Pool :=
  { pool with node := fun p => if p < k then ⟨pc, false⟩ else pool.node p }

theorem staged_next (pool : Pool) (pc : WorkerPc) {k : Nat} (clear : (pool.node k).isExit = false) :
    (staged pool pc k).setPc k pc = staged pool pc (k + 1) := by
  have nodes : ((staged pool pc k).setPc k pc).node = (staged pool pc (k + 1)).node := by
    funext q
    by_cases self : q = k
    · subst self
      simp [staged, Pool.setPc, clear]
    · have same : q < k ↔ q < k + 1 := by omega
      simp [staged, Pool.setPc, self, same]
  simp only [Pool.setPc, staged] at nodes ⊢
  rw [nodes]

/-- All workers find the list empty, then a task is added, then they fall asleep. -/
def oversleep (threadnum : Int) (node : WorkerNode) : List Event :=
  (List.range threadnum.toNat).map .worker ++
    (addOne node ++ (List.range threadnum.toNat).map .worker)

theorem all_tested {n : Nat} (created : pool.created = n) (empty : pool.tasks = [])
    (fresh : ∀ p, pool.node p = ⟨.test, false⟩) :
    run (step kind) pool ((List.range n).map .worker) = some (staged pool .wait n) := by
  have turn : ∀ k < n, step kind (staged pool .wait k) (.worker k) = some (staged pool .wait (k + 1)) := by
    intro k below
    rw [← staged_next pool .wait (by rw [fresh])]
    simp [step, workerStep, staged, created, empty, fresh, below]
  exact run_stages turn

theorem all_asleep {n : Nat} (created : pool.created = n) (free : pool.mutex = .free)
    (waits : ∀ p < n, pool.node p = ⟨.wait, false⟩) :
    run (step kind) pool ((List.range n).map .worker) = some (staged pool .asleep n) := by
  have turn : ∀ k < n, step kind (staged pool .asleep k) (.worker k) =
      some (staged pool .asleep (k + 1)) := by
    intro k below
    have released : { staged pool .asleep k with mutex := Mutex.free } = staged pool .asleep k := by
      rw [staged, ← free]
    rw [← staged_next pool .asleep (by rw [waits k below])]
    have here : (staged pool .asleep k).node k = ⟨.wait, false⟩ := by simp [staged, waits k below]
    have unheld : (staged pool .asleep k).mutex = .free := free
    have inside : k < (staged pool .asleep k).created := by
      rw [← created] at below
      exact below
    simp only [step, if_pos inside, workerStep, here, unheld, Mutex.release, released]
  exact run_stages turn

theorem oversleep_ran (kind : MutexKind) {threadnum : Int} (positive : 1 ≤ threadnum) (node : WorkerNode) :
    ∃ pool, run (step kind) (Pool.create threadnum) (oversleep threadnum node) = some pool ∧
      Stuck Resting pool := by
  rw [oversleep, create_eq]
  have some_worker : 0 < threadnum.toNat := by omega
  generalize threadnum.toNat = n at some_worker
  have tested : run (step kind) (fresh n) ((List.range n).map .worker) = some (staged (fresh n) .wait n) :=
    all_tested rfl rfl fun _ => rfl
  have nobody : ∀ q < n, ¬(staged (fresh n) .wait n).Asleep q := by
    rintro q below ⟨_, sleeps⟩
    simp only [staged, if_pos below] at sleeps
    cases sleeps
  have added : run (step kind) (staged (fresh n) .wait n) (addOne node) =
      some (withTask (staged (fresh n) .wait n) node) := addOne_run kind node rfl rfl nobody
  have slept : run (step kind) (withTask (staged (fresh n) .wait n) node) ((List.range n).map .worker) =
      some (staged (withTask (staged (fresh n) .wait n) node) .asleep n) :=
    all_asleep rfl rfl fun p below => if_pos below
  refine ⟨_, run_concat tested (run_concat added slept), ?_⟩
  have asleep : ∀ p < n, ((staged (withTask (staged (fresh n) .wait n) node) .asleep n).node p).pc = .asleep := by
    intro p below
    simp [staged, below]
  have idle : ∀ c, (staged (withTask (staged (fresh n) .wait n) node) .asleep n).callers c = .idle :=
    fun _ => rfl
  refine ⟨fun p below => Or.inl (asleep p below), fun c => Or.inl (idle c), Or.inl ⟨?_, 0, ?_⟩⟩
  · exact List.cons_ne_nil _ _
  · exact ⟨some_worker, asleep 0 some_worker⟩

/-- No order of the steps gets stuck. -/
def NeverStuck (kind : MutexKind) (threadnum : Int) : Prop :=
  ∀ events pool, run (step kind) (Pool.create threadnum) events = some pool → ¬Stuck Resting pool

theorem one_worker_oversleeps : ¬NeverStuck ⟨true, true⟩ 1 := by
  intro never
  obtain ⟨pool, ran, stuck⟩ := oversleep_ran ⟨true, true⟩ (show (1 : Int) ≤ 1 by decide) ⟨1, 2⟩
  exact never _ pool ran stuck

/-- Every pool that has a worker can get stuck. A run does not, in which what a worker tested is
still so when it falls asleep, and every signal wakes a thread that was told to exit when one
sleeps; nor do workers wait for the mutex, if none leaves with it or locks it against itself. -/
theorem stuck_iff (kind : MutexKind) (threadnum : Int) :
    (NeverStuck kind threadnum ↔ threadnum ≤ 0) ∧
      ∀ events pool, run (step kind) (Pool.create threadnum) events = some pool →
        Along (step kind) Mindful (Pool.create threadnum) events →
          ¬Stuck Resting pool ∧
            (Along (step kind) (Disciplined kind) (Pool.create threadnum) events →
              ¬Stuck (Halted kind) pool) := by
  apply And.intro
  · apply Iff.intro
    · intro never
      by_contra positive
      obtain ⟨pool, ran, stuck⟩ := oversleep_ran kind (show 1 ≤ threadnum by omega) ⟨1, 2⟩
      exact never _ pool ran stuck
    · intro none events pool ran stuck
      have nobody : pool.created = 0 := by
        rw [created_along ran]
        omega
      have sleeper : ∃ p, pool.Asleep p := by
        rcases stuck.lost with ⟨_, sleeper⟩ | ⟨_, p, _, _, sleeps⟩
        · exact sleeper
        · exact ⟨p, sleeps⟩
      obtain ⟨p, below, _⟩ := sleeper
      omega
  · intro events pool ran mindful
    have attends : ∀ pool event next, Attended pool → Mindful pool event →
        step kind pool event = some next → Attended next :=
      fun _ _ _ attended mindful taken => attended.step mindful (step_transition taken)
    have attended := run_preserves_along attends (attended_create threadnum) mindful ran
    refine ⟨attended.not_stuck, ?_⟩
    intro disciplined stuck
    have guards : ∀ pool event next, Guarded kind pool → Disciplined kind pool event →
        step kind pool event = some next → Guarded kind next :=
      fun _ _ _ guarded disciplined taken => guarded.step disciplined (step_transition taken)
    have guarded := run_preserves_along guards (guarded_create threadnum) disciplined ran
    exact attended.not_stuck (guarded.resting stuck)

end

/-- Both workers sleep, one is woken for a task, and it sleeps again when the task is done. -/
def wokenForTask : List Event :=
  [.worker 0, .worker 0, .worker 1, .worker 1, .addTask 0 ⟨1, 2⟩, .caller 0, .caller 0, .callerSignal 0 (some 1),
    .caller 0] ++ List.replicate 9 (.worker 1)

theorem stuck_iff_woken :
    ∃ pool, run (step ⟨true, true⟩) (Pool.create 2) wokenForTask = some pool ∧
      (∀ p < pool.created, pool.Asleep p) ∧ pool.completed = [⟨1, 2⟩] ∧
      ¬Stuck Resting pool ∧ ¬Stuck (Halted ⟨true, true⟩) pool := by
  obtain ⟨pool, ran, asleep, completed, mindful, disciplined⟩ : ∃ pool,
      run (step ⟨true, true⟩) (Pool.create 2) wokenForTask = some pool ∧
      (∀ p < pool.created, pool.Asleep p) ∧ pool.completed = [⟨1, 2⟩] ∧
      Along (step ⟨true, true⟩) Mindful (Pool.create 2) wokenForTask ∧
      Along (step ⟨true, true⟩) (Disciplined ⟨true, true⟩) (Pool.create 2) wokenForTask :=
    ⟨_, rfl, by decide, rfl, by decide, by decide⟩
  obtain ⟨resting, halted⟩ := (stuck_iff ⟨true, true⟩ 2).2 wokenForTask pool ran mindful
  exact ⟨pool, ran, asleep, completed, resting, halted disciplined⟩

end EasyStressTest.Wakeup
