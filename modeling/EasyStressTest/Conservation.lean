import EasyStressTest.Drain

/-!
What becomes of the tasks of the pool under any calls and any number of workers: what was added was
taken or waits in the list, and what was taken was run or is being run. A single worker runs the tasks
in the order in which they were added.
-/

namespace EasyStressTest.Conservation
open Execution Threads ThreadPool PoolStep Dispatch Drain

/-- The tasks whose worker functions are being run, or about to be. -/
def running (pool : Pool) : List WorkerNode :=
  (List.range pool.created).filterMap fun p => executing (pool.node p).pc

section
variable {kind : MutexKind} {pool next woken : Pool} {p : Nat} {event : Event} {events : List Event}
  {threadnum : Int} {last : Pool} {target : Option Nat}

theorem count_running (pool : Pool) (worker : WorkerNode) :
    (running pool).count worker = inFlight pool worker := by
  rw [running, List.count, List.countP_filterMap, inFlight, population]
  apply List.countP_congr
  intro p _
  cases here : executing (pool.node p).pc <;> simp [runs, here]

theorem running_length_le (pool : Pool) : (running pool).length ≤ pool.created := by
  have bound := List.length_filterMap_le (fun p => executing (pool.node p).pc) (List.range pool.created)
  rw [List.length_range] at bound
  exact bound

theorem created_run (ran : run (step kind) (Pool.create threadnum) events = some last) :
    last.created = threadnum.toNat := by
  have same : ∀ pool event next, pool.created = threadnum.toNat → step kind pool event = some next →
      next.created = threadnum.toNat :=
    fun _ _ _ before taken => (step_transition taken).created.trans before
  refine run_preserves same ?_ ran
  rw [create_eq]
  rfl

theorem accounts_run (ran : run (step kind) (Pool.create threadnum) events = some last) : Accounts last :=
  run_preserves (fun _ _ _ accounts taken => accounts.step (step_transition taken)) (accounts_create threadnum) ran

/-- What was taken was completed in the same order, but for the task that is being run. -/
structure Ordered (pool : Pool) : Prop where
  solo : pool.created ≤ 1
  order : pool.completed ++ running pool = pool.taken

theorem running_eq (created : next.created = pool.created)
    (same : ∀ q, executing (next.node q).pc = executing (pool.node q).pc) : running next = running pool := by
  unfold running
  rw [created]
  simp only [same]

theorem running_solo (solo : pool.created ≤ 1) (below : p < pool.created) :
    running pool = (executing (pool.node p).pc).toList := by
  have one : pool.created = 1 := by omega
  have first : p = 0 := by omega
  subst first
  rw [running, one]
  cases here : executing (pool.node 0).pc <;> simp [here]

theorem running_moved {pc : WorkerPc} (solo : pool.created ≤ 1) (below : p < pool.created)
    (moved : Moved p pc pool next) : running next = (executing pc).toList := by
  rw [← moved.created] at solo below
  rw [running_solo solo below, moved.node, pc_setPc, if_pos rfl]

/-- A step in which the worker takes up no task and completes none. -/
theorem Ordered.moves {pc : WorkerPc} (ordered : Ordered pool) (moved : Moved p pc pool next)
    (same : executing pc = executing (pool.node p).pc) (completed : next.completed = pool.completed)
    (taken : next.taken = pool.taken) : Ordered next := by
  have still : running next = running pool := by
    refine running_eq moved.created fun q => ?_
    rw [moved.node, pc_setPc]
    by_cases self : q = p
    · rw [if_pos self, self, same]
    · rw [if_neg self]
  refine ⟨by rw [moved.created]; exact ordered.solo, ?_⟩
  rw [completed, still, taken]
  exact ordered.order

theorem Ordered.stays (ordered : Ordered pool) (created : next.created = pool.created)
    (same : ∀ q, executing (next.node q).pc = executing (pool.node q).pc)
    (completed : next.completed = pool.completed) (taken : next.taken = pool.taken) : Ordered next := by
  refine ⟨by rw [created]; exact ordered.solo, ?_⟩
  rw [completed, running_eq created same, taken]
  exact ordered.order

theorem Ordered.condSignal (ordered : Ordered pool) (signalled : pool.condSignal target = some woken) :
    Ordered woken := by
  rcases condSignal_eq_some.mp signalled with ⟨q, _, sleeps, same⟩ | ⟨_, _, same⟩
  · rw [same]
    exact ordered.moves moved_setPc (by rw [sleeps.2]; rfl) rfl rfl
  · rw [same]
    exact ordered

theorem Ordered.step (ordered : Ordered pool) (taken : Transition kind pool event next) : Ordered next := by
  have order := ordered.order
  cases taken with
  | testWait below here => exact ordered.moves moved_setPc (by rw [here]; rfl) rfl rfl
  | testPass below here => exact ordered.moves moved_setPc (by rw [here]; rfl) rfl rfl
  | sleep below here => exact ordered.moves moved_setPc (by rw [here]; rfl) rfl rfl
  | reacquire below here => exact ordered.moves moved_setPc (by rw [here]; rfl) rfl rfl
  | leave below here => exact ordered.moves moved_setPc (by rw [here]; rfl) rfl rfl
  | stay below here => exact ordered.moves moved_setPc (by rw [here]; rfl) rfl rfl
  | lock below here => exact ordered.moves moved_setPc (by rw [here]; rfl) rfl rfl
  | @pop p worker rest below here front =>
    refine ⟨ordered.solo, ?_⟩
    rw [running_solo ordered.solo below, here] at order
    rw [running_moved ordered.solo below moved_setPc]
    change pool.completed ++ [worker] = pool.taken ++ [worker]
    rw [← order]
    simp [executing]
  | unlock below here => exact ordered.moves moved_setPc (by rw [here]; rfl) rfl rfl
  | @work p worker below here =>
    refine ⟨ordered.solo, ?_⟩
    rw [running_solo ordered.solo below, here] at order
    rw [running_moved ordered.solo below moved_setPc]
    change (pool.completed ++ [worker]) ++ [] = pool.taken
    rw [List.append_nil]
    exact order
  | @exitSignal p target woken below here signalled =>
    obtain ⟨node, same, how⟩ := condSignal_frame signalled
    have awake : executing .finished = executing (woken.node p).pc := by
      subst same
      rcases (how p).2 with unchanged | ⟨sleeps, _⟩
      · change _ = executing (node p).pc
        rw [unchanged, here]
        rfl
      · rw [here] at sleeps
        cases sleeps
    exact (ordered.condSignal signalled).moves moved_setPc awake rfl rfl
  | spurious sleeps => exact ordered.moves moved_setPc (by rw [sleeps.2]; rfl) rfl rfl
  | @delFlag c left pnode => exact ordered.stays rfl (fun q => congrArg executing (pc_setExit pool pnode q)) rfl rfl
  | @waitFlag c i pnode => exact ordered.stays rfl (fun q => congrArg executing (pc_setExit pool pnode q)) rfl rfl
  | callerSignal after signalled => exact (ordered.condSignal signalled).stays rfl (fun _ => rfl) rfl rfl
  | _ => exact ordered.stays rfl (fun _ => rfl) rfl rfl

/-- A pool of one thread runs the tasks one after another in the order of the `AddTask` calls. -/
theorem completed_in_order (few : threadnum ≤ 1)
    (ran : run (step kind) (Pool.create threadnum) events = some last) :
    last.completed ++ running last ++ last.tasks = last.added := by
  have ordered : Ordered last := by
    refine run_preserves (fun _ _ _ ordered taken => ordered.step (step_transition taken)) ?_ ran
    rw [create_eq]
    have solo : threadnum.toNat ≤ 1 := by omega
    refine ⟨solo, ?_⟩
    change (List.range threadnum.toNat).filterMap (fun _ => executing .test) = []
    simp [executing]
  rw [ordered.order]
  exact (accounts_run ran).history

/-- The first of two tasks is completed, and the second is being run. -/
theorem completed_in_order_two :
    ∃ last, run (step ⟨true, true⟩) (Pool.create 1)
        (addOne ⟨1, 1⟩ ++ addOne ⟨2, 2⟩ ++ List.replicate 11 (.worker 0)) = some last ∧
      last.completed = [⟨1, 1⟩] ∧ running last = [⟨2, 2⟩] ∧
      last.completed ++ running last ++ last.tasks = last.added := by
  obtain ⟨last, ran, completed, runs⟩ : ∃ last, run (step ⟨true, true⟩) (Pool.create 1)
        (addOne ⟨1, 1⟩ ++ addOne ⟨2, 2⟩ ++ List.replicate 11 (.worker 0)) = some last ∧
      last.completed = [⟨1, 1⟩] ∧ running last = [⟨2, 2⟩] := ⟨_, rfl, rfl, rfl⟩
  exact ⟨last, ran, completed, runs, completed_in_order (by decide) ran⟩

end

end EasyStressTest.Conservation
