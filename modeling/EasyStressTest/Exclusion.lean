import EasyStressTest.PoolStep

/-!
What `m_mutex` protects. A worker calls `uv_cond_wait` without the mutex, so a mutex that does not
look at its owner is taken from whoever is inside the critical section.
-/

namespace EasyStressTest.Exclusion
open Execution Threads ThreadPool PoolStep

def pops : WorkerPc → Bool
  | .pop => true
  | .unlock _ => true
  | _ => false

/-- Between `uv_mutex_lock` and `uv_mutex_unlock`, in `ThreadProc` or in `AddTask`. -/
def InSection (pool : Pool) : Thread → Prop
  | .worker p => p < pool.created ∧ pops (pool.node p).pc = true
  | .caller c => pushes (pool.callers c) = true

/-- Who is in the critical section owns the mutex, so at most one thread is. -/
def Protected (pool : Pool) : Prop := ∀ thread, InSection pool thread → 0 < pool.mutex.holds thread

/-- To fall asleep, a worker does not release the last hold of another thread that is in the critical
section. -/
def Respects (kind : MutexKind) (pool : Pool) : Event → Prop
  | .worker p =>
      (pool.node p).pc = .wait → kind.checked = true ∨
        ∀ thread, thread ≠ .worker p → InSection pool thread → pool.mutex.holds thread ≠ 1
  | _ => True

section
variable {kind : MutexKind} {pool next woken : Pool} {p c : Nat} {thread other : Thread} {event : Event}
  {target : Option Nat}

theorem holds_alone {mutex : Mutex Thread} (own : 0 < mutex.holds thread) (held : 0 < mutex.holds other) :
    thread = other := by
  obtain ⟨again, same⟩ := holds_pos.mp own
  obtain ⟨more, also⟩ := holds_pos.mp held
  rw [same] at also
  exact (Mutex.held.inj also).1

/-- Mutual exclusion. -/
theorem Protected.alone (protects : Protected pool) (inside : InSection pool thread)
    (also : InSection pool other) : thread = other :=
  holds_alone (protects thread inside) (protects other also)

/-- A release takes one hold from an owner that it is not meant for, unless the mutex looks at its owner. -/
theorem holds_release_other (kind : MutexKind) (mutex : Mutex Thread) (different : other ≠ thread) :
    (mutex.release kind thread).holds other = mutex.holds other - (!kind.checked).toNat := by
  cases mutex with
  | free => simp [Mutex.release]
  | held owner again =>
    by_cases mine : owner = thread
    · have apart : owner ≠ other := by
        rw [mine]
        exact different.symm
      cases again <;> simp [Mutex.release, mine, different.symm]
    · cases checked : kind.checked with
      | true => cases again <;> simp [Mutex.release, mine, checked]
      | false =>
        cases again with
        | zero =>
          simp only [Mutex.release, checked, Bool.not_false, or_true, if_true, holds_free, holds_held,
            Bool.toNat_true]
          split <;> rfl
        | succ again =>
          simp only [Mutex.release, checked, Bool.not_false, or_true, if_true, holds_held, Bool.toNat_true]
          split <;> rfl

/-! What a step does to the section. -/

theorem inSection_moved {pc : WorkerPc} (moved : Moved p pc pool next) (inside : InSection next thread) :
    thread ≠ .worker p ∧ InSection pool thread ∨ thread = .worker p ∧ pops pc = true := by
  cases thread with
  | worker q =>
    obtain ⟨below, popping⟩ := inside
    rw [moved.created] at below
    rw [moved.node, pc_setPc] at popping
    by_cases self : q = p
    · rw [if_pos self] at popping
      exact Or.inr ⟨by rw [self], popping⟩
    · rw [if_neg self] at popping
      exact Or.inl ⟨by simp [self], below, popping⟩
  | caller c =>
    refine Or.inl ⟨by simp, ?_⟩
    unfold InSection at inside ⊢
    rw [moved.callers] at inside
    exact inside

theorem inSection_apart {pc : WorkerPc} (moved : Moved p pc pool next) (different : thread ≠ .worker p)
    (inside : InSection pool thread) : InSection next thread := by
  cases thread with
  | worker q =>
    have other : q ≠ p := fun self => different (by rw [self])
    refine ⟨?_, ?_⟩
    · rw [moved.created]
      exact inside.1
    · rw [moved.node, pc_setPc, if_neg other]
      exact inside.2
  | caller c =>
    change pushes (next.callers c) = true
    rw [moved.callers]
    exact inside

theorem inSection_called {pc : CallerPc} (called : Called c pc pool next) (inside : InSection next thread) :
    thread ≠ .caller c ∧ InSection pool thread ∨ thread = .caller c ∧ pushes pc = true := by
  cases thread with
  | worker q =>
    refine Or.inl ⟨by simp, ?_⟩
    unfold InSection at inside ⊢
    rw [called.created, called.node] at inside
    exact inside
  | caller d =>
    simp only [InSection, called.callers, callers_setCaller] at inside
    by_cases self : d = c
    · rw [if_pos self] at inside
      exact Or.inr ⟨by rw [self], inside⟩
    · rw [if_neg self] at inside
      exact Or.inl ⟨by simp [self], inside⟩

theorem Protected.stays (protects : Protected pool) (mutex : next.mutex = pool.mutex)
    (entered : ∀ thread, InSection next thread → InSection pool thread) : Protected next := by
  intro thread inside
  rw [mutex]
  exact protects thread (entered thread inside)

theorem Protected.acquires (protects : Protected pool)
    (acquired : pool.mutex.acquire kind thread = some next.mutex)
    (entered : ∀ other, InSection next other → other ≠ thread → InSection pool other) : Protected next := by
  intro other inside
  by_cases self : other = thread
  · rw [self, (holds_acquire acquired).1]
    exact Nat.succ_pos _
  · rw [holds_acquire_other acquired (Ne.symm self)]
    exact protects other (entered other inside self)

theorem Protected.releases (protects : Protected pool)
    (released : next.mutex = pool.mutex.release kind thread)
    (left : ∀ other, InSection next other → other ≠ thread ∧ InSection pool other)
    (respects : kind.checked = true ∨
      ∀ other, other ≠ thread → InSection pool other → pool.mutex.holds other ≠ 1) : Protected next := by
  intro other inside
  obtain ⟨different, before⟩ := left other inside
  have held := protects other before
  rw [released, holds_release_other kind _ different]
  rcases respects with checked | spared
  · simpa [checked] using held
  · have kept := spared other different before
    have one := Bool.toNat_le (!kind.checked)
    omega

/-- The same mutex, and a worker that goes on to a step outside the section or stays in it. -/
theorem Protected.moves {pc : WorkerPc} (protects : Protected pool) (moved : Moved p pc pool next)
    (mutex : next.mutex = pool.mutex) (inside : pops pc = true → InSection pool (.worker p)) : Protected next := by
  refine protects.stays mutex fun thread now => ?_
  rcases inSection_moved moved now with ⟨_, before⟩ | ⟨self, popping⟩
  · exact before
  · rw [self]
    exact inside popping

theorem Protected.calls {pc : CallerPc} (protects : Protected pool) (called : Called c pc pool next)
    (mutex : next.mutex = pool.mutex) (inside : pushes pc = true → InSection pool (.caller c)) :
    Protected next := by
  refine protects.stays mutex fun thread now => ?_
  rcases inSection_called called now with ⟨_, before⟩ | ⟨self, pushing⟩
  · exact before
  · rw [self]
    exact inside pushing

theorem Protected.condSignal (protects : Protected pool) (signalled : pool.condSignal target = some woken) :
    Protected woken := by
  rcases condSignal_eq_some.mp signalled with ⟨q, _, _, same⟩ | ⟨_, _, same⟩
  · rw [same]
    exact protects.moves moved_setPc rfl (by simp [pops])
  · rw [same]
    exact protects

theorem Protected.setExit (protects : Protected pool) (p : Nat) : Protected (pool.setExit p) := by
  refine protects.stays rfl fun thread now => ?_
  cases thread with
  | worker q =>
    change q < pool.created ∧ pops ((pool.setExit p).node q).pc = true at now
    rw [pc_setExit] at now
    exact now
  | caller c => exact now

/-- A caller's signal is the one of `AddTask`, inside the section, or one outside of it. -/
theorem pushes_afterSignal {before after : CallerPc} (signals : afterSignal before = some after)
    (pushing : pushes after = true) : pushes before = true := by
  cases before with
  | addSignal => rfl
  | delSignal =>
    cases signals
    cases pushing
  | waitSignal =>
    cases signals
    cases pushing
  | _ => cases signals

/-- The owner of the mutex leaves the section, and nobody else is inside. -/
theorem Protected.leaves (protects : Protected pool) (released : next.mutex = pool.mutex.release kind thread)
    (inside : InSection pool thread)
    (left : ∀ other, InSection next other → other ≠ thread ∧ InSection pool other) : Protected next := by
  apply protects.releases released left
  right
  intro other different also
  exact absurd (protects.alone also inside) different

theorem Protected.step (protects : Protected pool) (respects : Respects kind pool event)
    (taken : Transition kind pool event next) : Protected next := by
  cases taken with
  | testWait => exact protects.moves moved_setPc rfl (by simp [pops])
  | testPass => exact protects.moves moved_setPc rfl (by simp [pops])
  | @sleep p below here =>
    refine protects.releases rfl (fun other inside => ?_) (respects here)
    rcases inSection_moved moved_setPc inside with before | ⟨_, popping⟩
    · exact before
    · cases popping
  | @reacquire p mutex below here acquired =>
    refine protects.acquires acquired fun other inside different => ?_
    rcases inSection_moved moved_setPc inside with ⟨_, before⟩ | ⟨self, _⟩
    · exact before
    · exact absurd self different
  | leave => exact protects.moves moved_setPc rfl (by simp [pops])
  | stay => exact protects.moves moved_setPc rfl (by simp [pops])
  | @lock p mutex below here acquired =>
    refine protects.acquires acquired fun other inside different => ?_
    rcases inSection_moved moved_setPc inside with ⟨_, before⟩ | ⟨self, _⟩
    · exact before
    · exact absurd self different
  | pop below here => exact protects.moves moved_setPc rfl fun _ => ⟨below, by rw [here]; rfl⟩
  | unlock below here =>
    refine protects.leaves rfl ⟨below, by rw [here]; rfl⟩ fun other inside => ?_
    rcases inSection_moved moved_setPc inside with before | ⟨_, popping⟩
    · exact before
    · cases popping
  | work => exact protects.moves moved_setPc rfl (by simp [pops])
  | exitSignal below here signalled =>
    exact (protects.condSignal signalled).moves moved_setPc rfl (by simp [pops])
  | spurious => exact protects.moves moved_setPc rfl (by simp [pops])
  | @addLock c node mutex here acquired =>
    refine protects.acquires acquired fun other inside different => ?_
    rcases inSection_called called_setCaller inside with ⟨_, before⟩ | ⟨self, _⟩
    · exact before
    · exact absurd self different
  | addPush here =>
    refine protects.calls called_setCaller rfl fun _ => ?_
    change pushes (pool.callers _) = true
    rw [here]
    rfl
  | @addUnlock c here =>
    have inside : InSection pool (.caller c) := by
      change pushes (pool.callers c) = true
      rw [here]
      rfl
    refine protects.leaves rfl inside fun other inside => ?_
    rcases inSection_called called_setCaller inside with before | ⟨_, pushing⟩
    · exact before
    · cases pushing
  | @delFlag c left pnode here =>
    exact (protects.setExit pnode).calls called_setCaller rfl (by simp [pushes])
  | @waitFlag c i pnode here =>
    exact (protects.setExit pnode).calls called_setCaller rfl (by simp [pushes])
  | callerSignal after signalled =>
    refine (protects.condSignal signalled).calls called_setCaller rfl fun pushing => ?_
    obtain ⟨node, same, _⟩ := condSignal_frame signalled
    subst same
    exact pushes_afterSignal after pushing
  | _ => exact protects.calls called_setCaller rfl (by simp [pushes])

/-- A worker that falls asleep releases the only hold of a thread inside the section. -/
theorem exposed (steals : ¬Respects kind pool event)
    (taken : Transition kind pool event next) : ¬Protected next := by
  cases event with
  | worker p =>
    simp only [Respects, not_forall, not_or, not_not] at steals
    obtain ⟨here, unchecked, thread, different, inside, once⟩ := steals
    have moved : Moved p .asleep pool next := by
      cases taken with
      | sleep => exact moved_setPc
      | _ => simp_all
    have released : next.mutex = pool.mutex.release kind (.worker p) := by
      cases taken with
      | sleep => rfl
      | _ => simp_all
    have still : InSection next thread := inSection_apart moved different inside
    intro protected'
    have held := protected' thread still
    rw [released, holds_release_other kind _ different, once] at held
    simp [unchecked] at held
  | _ => exact absurd trivial steals

theorem protected_create (threadnum : Int) : Protected (Pool.create threadnum) := by
  rw [create_eq]
  intro thread inside
  cases thread with
  | worker p => cases inside.2
  | caller c => cases inside

/-- Every thread between `uv_mutex_lock` and `uv_mutex_unlock` owns the mutex, and so is alone there, in
every state of a run exactly when no worker that falls asleep releases the only hold of another. -/
theorem protected_iff {threadnum : Int} {events : List Event} {last : Pool}
    (ran : run (step kind) (Pool.create threadnum) events = some last) :
    ReachesOnly (step kind) Protected (Pool.create threadnum) events ↔
      Along (step kind) (Respects kind) (Pool.create threadnum) events := by
  refine reachesOnly_iff_along (fun _ protects => protects) ?_ ?_ (protected_create threadnum) ran
  · intro pool event next protects respects taken
    exact protects.step respects (step_transition taken)
  · intro pool event next _ steals taken
    exact exposed steals (step_transition taken)

end

/-- A worker finds the list empty and falls asleep while `AddTask` holds the mutex, and a second
`AddTask` comes in. -/
theorem protected_iff_stolen :
    ∃ last, run (step ⟨true, false⟩) (Pool.create 1)
        [.worker 0, .addTask 0 ⟨1, 2⟩, .caller 0, .worker 0, .addTask 1 ⟨3, 4⟩, .caller 1] = some last ∧
      (InSection last (.caller 0) ∧ InSection last (.caller 1)) ∧
      ¬ReachesOnly (step ⟨true, false⟩) Protected (Pool.create 1)
        [.worker 0, .addTask 0 ⟨1, 2⟩, .caller 0, .worker 0, .addTask 1 ⟨3, 4⟩, .caller 1] := by
  obtain ⟨last, ran, both⟩ : ∃ last, run (step ⟨true, false⟩) (Pool.create 1)
        [.worker 0, .addTask 0 ⟨1, 2⟩, .caller 0, .worker 0, .addTask 1 ⟨3, 4⟩, .caller 1] = some last ∧
      (InSection last (.caller 0) ∧ InSection last (.caller 1)) := ⟨_, rfl, rfl, rfl⟩
  refine ⟨last, ran, both, ?_⟩
  rw [protected_iff ran]
  intro along
  have respects := (((along.2 _ rfl).2 _ rfl).2 _ rfl).1 rfl
  rcases respects with checked | spared
  · cases checked
  · exact spared (.caller 0) (by simp) rfl rfl

end EasyStressTest.Exclusion
