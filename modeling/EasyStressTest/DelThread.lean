import EasyStressTest.Dispatch
import EasyStressTest.Resizing

/-!
`DelThread` among the workers. In the pool it is a call that takes its steps between those of the
threads it stops. Once it has returned, whatever came in between, it has done to `m_threads` and to
the nodes what the call of `Resizing` does at once.
-/

namespace EasyStressTest.DelThread
open Execution Threads ThreadPool PoolStep Dispatch
open Resizing (Roster Rostered)

/-- The same entries, nodes, flags and deletions. -/
structure Agrees (pool : Pool) (roster : Roster) : Prop where
  threads : pool.threads = roster.threads
  created : pool.created = roster.created
  flags : ∀ p, (pool.node p).isExit = (roster.node p).isExit
  joined : ∀ p, p ∈ pool.joined ↔ (roster.node p).joinable = false
  deleted : ∀ p, p ∈ pool.deleted ↔ roster.Freed p

/-- Nothing happened to the threads of the pool. -/
structure Unresized (pool next : Pool) : Prop where
  threads : next.threads = pool.threads
  created : next.created = pool.created
  flags : ∀ p, (next.node p).isExit = (pool.node p).isExit
  joined : next.joined = pool.joined
  deleted : next.deleted = pool.deleted

/-- In a turn of the loop that takes the last node, when this was done with it. -/
def Underway (goal : Roster) (pool : Pool) (pnode left : Nat) (done : Roster → Roster) : Prop :=
  ∃ roster front, Agrees pool (done roster) ∧ Rostered roster ∧ roster.threads.length < 2 ^ 31 ∧
    roster.threads = front ++ [pnode] ∧ (roster.without pnode).delTurns left = some goal

/-- A caller at this step is on its way to the roster `goal`. -/
def Toward (goal : Roster) (pool : Pool) : CallerPc → Prop
  | .delTest left =>
      ∃ roster, Agrees pool roster ∧ Rostered roster ∧ roster.threads.length < 2 ^ 31 ∧
        roster.delTurns left = some goal
  | .delFlag pnode left => Underway goal pool pnode left id
  | .delSignal pnode left => Underway goal pool pnode left fun roster => roster.exit pnode
  | .delJoin pnode left => Underway goal pool pnode left fun roster => roster.exit pnode
  | .delDelete pnode left => Underway goal pool pnode left fun roster => (roster.exit pnode).join pnode
  | .waitFlag _ => False
  | .waitSignal _ => False
  | .waitJoin _ => False
  | _ => Agrees pool goal

/-- Caller c alone resizes the pool. -/
structure Deleting (c : Nat) (goal : Roster) (pool : Pool) : Prop where
  others : ∀ d, d ≠ c → adds (pool.callers d) = true
  toward : Toward goal pool (pool.callers c)

section
variable {kind : MutexKind} {pool next woken last : Pool} {roster goal : Roster} {c d p pnode left : Nat}
  {pc before : CallerPc} {event : Event} {target : Option Nat}

theorem Agrees.unresized (agrees : Agrees pool roster) (same : Unresized pool next) : Agrees next roster where
  threads := same.threads.trans agrees.threads
  created := same.created.trans agrees.created
  flags := fun p => (same.flags p).trans (agrees.flags p)
  joined := fun p => by rw [same.joined]; exact agrees.joined p
  deleted := fun p => by rw [same.deleted]; exact agrees.deleted p

theorem unresized_setPc {pc : WorkerPc} {mutex : Mutex Thread} {tasks taken completed : List WorkerNode} :
    Unresized pool
      ({ pool with mutex := mutex, tasks := tasks, taken := taken, completed := completed }.setPc p pc) :=
  ⟨rfl, rfl, fun q => isExit_setPc pool p q pc, rfl, rfl⟩

theorem unresized_setCaller {mutex : Mutex Thread} {tasks added : List WorkerNode} :
    Unresized pool (Pool.setCaller { pool with mutex := mutex, tasks := tasks, added := added } c pc) :=
  ⟨rfl, rfl, fun _ => rfl, rfl, rfl⟩

theorem unresized_condSignal (signalled : pool.condSignal target = some woken) : Unresized pool woken := by
  obtain ⟨node, same, how⟩ := condSignal_frame signalled
  subst same
  exact ⟨rfl, rfl, fun q => (how q).1, rfl, rfl⟩

theorem Agrees.exit (agrees : Agrees pool roster) (p : Nat) : Agrees (pool.setExit p) (roster.exit p) where
  threads := agrees.threads
  created := agrees.created
  flags := by
    intro q
    rw [isExit_setExit]
    by_cases self : q = p
    · simp [Roster.exit, self]
    · simp [Roster.exit, self, agrees.flags q]
  joined := by
    intro q
    by_cases self : q = p
    · subst self
      rw [Resizing.joinable_exit]
      exact agrees.joined q
    · simp [Roster.exit, self, agrees.joined q]
  deleted := by
    intro q
    rw [Roster.Freed, Resizing.history_exit, List.mem_append]
    by_cases self : p = q <;> simp [self, agrees.deleted q, Roster.Freed]

theorem Agrees.join (agrees : Agrees pool roster) {joined : List Nat}
    (ended : p ∈ pool.joined ∧ joined = pool.joined ∨
      p ∉ pool.joined ∧ (pool.node p).pc = .finished ∧ joined = p :: pool.joined) :
    Agrees { pool with joined := joined } (roster.join p) := by
  rcases ended with ⟨past, same⟩ | ⟨fresh, _, same⟩
  · subst same
    have joinable : ¬(roster.node p).joinable = true := by simp [(agrees.joined p).mp past]
    rw [Roster.join, if_neg joinable]
    exact agrees
  · subst same
    have joinable : (roster.node p).joinable = true := by
      rw [agrees.joined] at fresh
      simpa using fresh
    refine ⟨?_, ?_, ?_, ?_, ?_⟩
    · rw [Roster.join, if_pos joinable]
      exact agrees.threads
    · rw [Roster.join, if_pos joinable]
      exact agrees.created
    · intro q
      rw [Roster.join, if_pos joinable]
      by_cases self : q = p
      · simp [self, agrees.flags p]
      · simp [self, agrees.flags q]
    · intro q
      rw [Roster.join, if_pos joinable]
      by_cases self : q = p
      · simp [self]
      · simp [self, agrees.joined q]
    · intro q
      rw [Roster.Freed, Resizing.history_join joinable, List.mem_append]
      by_cases self : p = q <;> simp [self, agrees.deleted q, Roster.Freed]

theorem Agrees.delete (agrees : Agrees pool roster) (p : Nat) :
    Agrees { pool with deleted := p :: pool.deleted, threads := pool.threads.dropLast } (roster.delete p) where
  threads := congrArg List.dropLast agrees.threads
  created := agrees.created
  flags := agrees.flags
  joined := agrees.joined
  deleted := by
    intro q
    rw [Roster.Freed, Resizing.history_delete, List.mem_append]
    by_cases self : p = q
    · simp [self]
    · simp [self, Ne.symm self, agrees.deleted q, Roster.Freed]

theorem Agrees.newThread (agrees : Agrees pool roster) (rostered : Rostered roster) :
    Agrees pool.newThread roster.newThread := by
  have unborn := rostered.unborn roster.created (Nat.le_refl _)
  refine ⟨?_, congrArg (· + 1) agrees.created, ?_, ?_, ?_⟩
  · simp [Pool.newThread, Roster.newThread, agrees.threads, agrees.created]
  · intro p
    by_cases self : p = roster.created
    · simp [Pool.newThread, Roster.newThread, agrees.created, self]
    · simp [Pool.newThread, Roster.newThread, agrees.created, self, agrees.flags p]
  · intro p
    by_cases self : p = roster.created
    · simp [Pool.newThread, Roster.newThread, self, agrees.joined roster.created, unborn.1]
    · simp [Pool.newThread, Roster.newThread, self, agrees.joined p]
  · intro p
    rw [Roster.Freed, Resizing.history_newThread, List.mem_append]
    by_cases self : roster.created = p <;> simp [Pool.newThread, self, agrees.deleted p, Roster.Freed]

theorem Agrees.addThread (agrees : Agrees pool roster) (rostered : Rostered roster) (threadnum : Int32) :
    Agrees (pool.addThread threadnum.toInt) (roster.addThread threadnum) := by
  have both : ∀ turns, Agrees (Nat.repeat Pool.newThread turns pool) (Nat.repeat Roster.newThread turns roster) ∧
      Rostered (Nat.repeat Roster.newThread turns roster) := by
    intro turns
    induction turns with
    | zero => exact ⟨agrees, rostered⟩
    | succ turns ih => exact ⟨ih.1.newThread ih.2, ih.2.newThread⟩
  exact (both threadnum.toInt.toNat).1

/-- The constructor. -/
theorem agrees_create (threadnum : Int32) :
    Agrees (Pool.create threadnum.toInt) (Roster.empty.addThread threadnum) := by
  have nothing : Agrees Pool.empty Roster.empty := by
    refine ⟨rfl, rfl, fun _ => rfl, ?_, ?_⟩
    · simp [Pool.empty, Roster.empty]
    · simp [Pool.empty, Roster.empty, Roster.Freed, Roster.history]
  exact nothing.addThread Rostered.empty threadnum

theorem Underway.unresized {done : Roster → Roster} (underway : Underway goal pool pnode left done)
    (same : Unresized pool next) : Underway goal next pnode left done := by
  obtain ⟨roster, front, agrees, rest⟩ := underway
  exact ⟨roster, front, agrees.unresized same, rest⟩

theorem Toward.unresized (toward : Toward goal pool pc) (same : Unresized pool next) : Toward goal next pc := by
  cases pc with
  | delTest left =>
    obtain ⟨roster, agrees, rest⟩ := toward
    exact ⟨roster, agrees.unresized same, rest⟩
  | delFlag pnode left => exact Underway.unresized toward same
  | delSignal pnode left => exact Underway.unresized toward same
  | delJoin pnode left => exact Underway.unresized toward same
  | delDelete pnode left => exact Underway.unresized toward same
  | waitFlag i => exact toward
  | waitSignal i => exact toward
  | waitJoin i => exact toward
  | idle => exact Agrees.unresized toward same
  | addLock node => exact Agrees.unresized toward same
  | addPush node => exact Agrees.unresized toward same
  | addSignal => exact Agrees.unresized toward same
  | addUnlock => exact Agrees.unresized toward same

theorem toward_adds (adding : adds pc = true) : Toward goal pool pc ↔ Agrees pool goal := by
  cases pc <;> first | exact Iff.rfl | cases adding

/-- Another thread goes on, or this caller does within `AddTask`. -/
theorem Deleting.adding (deleting : Deleting c goal pool) (here : pool.callers d = before)
    (adding : adds before = true) (still : adds pc = true) (same : Unresized pool next)
    (callers : next.callers = (pool.setCaller d pc).callers) : Deleting c goal next := by
  refine ⟨?_, ?_⟩
  · intro e other
    rw [callers, callers_setCaller]
    split
    · exact still
    · exact deleting.others e other
  · rw [callers, callers_setCaller]
    split
    · next self =>
      have agrees := deleting.toward
      rw [self, here, toward_adds adding] at agrees
      exact (toward_adds still).mpr (agrees.unresized same)
    · exact deleting.toward.unresized same

/-- Only caller c is in `DelThread`. -/
theorem Deleting.own (deleting : Deleting c goal pool) (here : pool.callers d = before)
    (deletes : adds before = false) : d = c ∧ Toward goal pool before := by
  have self : d = c := by
    by_contra other
    have adding := deleting.others d other
    rw [here, deletes] at adding
    cases adding
  subst self
  have toward := deleting.toward
  rw [here] at toward
  exact ⟨rfl, toward⟩

/-- Caller c goes on in `DelThread`. -/
theorem Deleting.goes (deleting : Deleting c goal pool) (pc : CallerPc) (self : d = c) (toward : Toward goal next pc)
    (callers : next.callers = (pool.setCaller d pc).callers) : Deleting c goal next := by
  subst self
  refine ⟨?_, ?_⟩
  · intro e other
    rw [callers, callers_setCaller, if_neg other]
    exact deleting.others e other
  · rw [callers, callers_setCaller, if_pos rfl]
    exact toward

/-- A worker goes on. -/
theorem Deleting.works (deleting : Deleting c goal pool) (same : Unresized pool next)
    (callers : next.callers = pool.callers) : Deleting c goal next := by
  refine ⟨?_, ?_⟩
  · rw [callers]
    exact deleting.others
  · rw [callers]
    exact deleting.toward.unresized same

theorem Deleting.step (deleting : Deleting c goal pool) (quiet : dispatches event = true)
    (taken : Transition kind pool event next) : Deleting c goal next := by
  cases taken with
  | testWait => exact deleting.works unresized_setPc rfl
  | testPass => exact deleting.works unresized_setPc rfl
  | sleep => exact deleting.works unresized_setPc rfl
  | reacquire => exact deleting.works unresized_setPc rfl
  | leave => exact deleting.works unresized_setPc rfl
  | stay => exact deleting.works unresized_setPc rfl
  | lock => exact deleting.works unresized_setPc rfl
  | pop => exact deleting.works unresized_setPc rfl
  | unlock => exact deleting.works unresized_setPc rfl
  | work => exact deleting.works unresized_setPc rfl
  | exitSignal below here signalled =>
    have still := unresized_condSignal signalled
    obtain ⟨node, same, _⟩ := condSignal_frame signalled
    subst same
    exact (deleting.works still rfl).works unresized_setPc rfl
  | spurious => exact deleting.works unresized_setPc rfl
  | addTask node idle => exact deleting.adding idle rfl rfl unresized_setCaller rfl
  | delThread => cases quiet
  | waitAll => cases quiet
  | addLock here => exact deleting.adding here rfl rfl unresized_setCaller rfl
  | addPush here => exact deleting.adding here rfl rfl unresized_setCaller rfl
  | addUnlock here => exact deleting.adding here rfl rfl unresized_setCaller rfl
  | delReturn here =>
    obtain ⟨self, roster, agrees, _, _, arrived⟩ := deleting.own here rfl
    cases arrived
    exact deleting.goes .idle self (Agrees.unresized agrees unresized_setCaller) rfl
  | @delNone d left here none =>
    obtain ⟨self, roster, agrees, rostered, small, rest⟩ := deleting.own here rfl
    have empty : roster.threads = [] := agrees.threads.symm.trans none
    rw [Roster.delTurns, Resizing.delOne_empty empty] at rest
    exact deleting.goes (.delTest left) self ⟨roster, agrees.unresized unresized_setCaller, rostered, small, rest⟩ rfl
  | @delLast d left pnode here last =>
    obtain ⟨self, roster, agrees, rostered, small, rest⟩ := deleting.own here rfl
    rw [agrees.threads] at last
    obtain ⟨front, threads⟩ := List.getLast?_eq_some_iff.mp last
    have entry : pnode ∈ roster.threads := List.mem_of_getLast? last
    rw [Roster.delTurns, Resizing.delOne_last small threads (rostered.unfreed entry)] at rest
    exact deleting.goes (.delFlag pnode left) self
      ⟨roster, front, agrees.unresized unresized_setCaller, rostered, small, threads, rest⟩ rfl
  | @delFlag d left pnode here =>
    obtain ⟨self, roster, front, agrees, rest⟩ := deleting.own here rfl
    exact deleting.goes (.delSignal pnode left) self
      ⟨roster, front, (agrees.exit pnode).unresized unresized_setCaller, rest⟩ rfl
  | @delJoin d left pnode joined here ended =>
    obtain ⟨self, roster, front, agrees, rest⟩ := deleting.own here rfl
    exact deleting.goes (.delDelete pnode left) self
      ⟨roster, front, (agrees.join ended).unresized unresized_setCaller, rest⟩ rfl
  | @delDelete d left pnode here =>
    obtain ⟨self, roster, front, agrees, rostered, small, threads, rest⟩ := deleting.own here rfl
    have shorter : (roster.without pnode).threads.length < 2 ^ 31 := by
      rw [(Resizing.without_threads roster pnode).1, List.length_dropLast]
      omega
    exact deleting.goes (.delTest left) self
      ⟨roster.without pnode, (agrees.delete pnode).unresized unresized_setCaller, rostered.without threads,
        shorter, rest⟩ rfl
  | waitFlag here => exact (deleting.own here rfl).2.elim
  | waitFlagged here => exact (deleting.own here rfl).2.elim
  | waitJoin here => exact (deleting.own here rfl).2.elim
  | waitReturn here => exact (deleting.own here rfl).2.elim
  | @callerSignal d target woken pc after signalled =>
    have still := unresized_condSignal signalled
    obtain ⟨node, same, _⟩ := condSignal_frame signalled
    subst same
    have resting := deleting.works still rfl
    cases here : pool.callers d with
    | addSignal =>
      rw [here] at after
      cases after
      exact resting.adding here rfl rfl unresized_setCaller rfl
    | delSignal pnode left =>
      rw [here] at after
      cases after
      obtain ⟨self, toward⟩ := resting.own here rfl
      have joins : Toward goal { pool with node := node } (.delJoin pnode left) := toward
      exact resting.goes (.delJoin pnode left) self (joins.unresized unresized_setCaller) rfl
    | waitSignal i => exact (deleting.own here rfl).2.elim
    | _ =>
      rw [here] at after
      cases after

/-- A call of `DelThread` that has returned, among `AddTask` calls and the steps of the workers. -/
theorem delThread_refines {threadnum : Int32} {events : List Event} (agrees : Agrees pool roster)
    (rostered : Rostered roster) (small : roster.threads.length < 2 ^ 31)
    (others : ∀ d, d ≠ c → adds (pool.callers d) = true)
    (quiet : ∀ event ∈ events, dispatches event = true)
    (ran : run (step kind) pool (.delThread c threadnum.toInt :: events) = some last)
    (returned : last.callers c = .idle) :
    ∃ next, roster.delThread threadnum = some next ∧ Agrees last next := by
  obtain ⟨goal, deleted, _, _⟩ := Resizing.delTurns_spec rostered small threadnum.toInt.toNat
  refine ⟨goal, deleted, ?_⟩
  obtain ⟨called, taken, later⟩ := (run_cons (step kind) pool last _ events).mp ran
  obtain ⟨_, same⟩ := call_eq_some.mp taken
  have begun : Deleting c goal called := by
    subst same
    refine ⟨?_, ?_⟩
    · intro d other
      rw [callers_setCaller, if_neg other]
      exact others d other
    · rw [callers_setCaller, if_pos rfl]
      exact ⟨roster, agrees.unresized unresized_setCaller, rostered, small, deleted⟩
  have kept : ∀ pool event next, Deleting c goal pool → restrict (step kind) dispatches pool event = some next →
      Deleting c goal next := by
    intro pool event next deleting taken
    obtain ⟨quiet, moved⟩ := restrict_eq_some.mp taken
    exact deleting.step quiet (step_transition moved)
  rw [← run_restrict called quiet] at later
  have arrived := (run_preserves kept begun later).toward
  rw [returned] at arrived
  exact arrived

end

end EasyStressTest.DelThread
