import EasyStressTest.LoadControl
import EasyStressTest.Retirement

/-!
The turnover of `task_list`: how many tasks a run can post, and the order in which they are erased.
-/

namespace EasyStressTest.Turnover
open Define HttpTask Options Tasks Libuv Callbacks Loop Execution Lifecycle Simulation Population
open Posting Shutdown Sweep Reachability LoadControl RetireQueue Retirement

section
variable {platform : Platform} {config : MainConfig} {hosts : Nat → Option UInt32} {events : List Event}
  {event : Event} {info next last : MainInfo}

/-- Every task is listed or was erased. -/
def Balanced (info : MainInfo) : Prop := info.nodes = info.tasks.count + (queueOf info).released.length

theorem Balanced.step (balanced : Balanced info) (good : Good info)
    (taken : step platform config info event = some next) : Balanced next := by
  obtain ⟨allowed, result⟩ := step_eq_some.mp taken
  have queue := step_queue good taken
  rw [Balanced] at balanced ⊢
  cases about : target event with
  | some p =>
    have frame := (target_local about (good.lives p (target_bound about allowed)).routed allowed result).frame
    have erased : (queueOf next).released = (queueOf info).released := by
      rcases target_retires about (good.lives p (target_bound about allowed)).routed result with
        ⟨_, noted⟩ | ⟨_, _, noted⟩
      · exact noted.erasures
      · exact noted.erasures
    rw [erased, CTasks.count, frame.nodes, frame.taskList]
    exact balanced
  | none =>
    cases event with
    | tick hosts =>
      have posted := tick_posted good taken
      have erased : (queueOf next).released = (queueOf info).released := by
        rw [queue]
        rfl
      have nodes := posted.nodes
      have count := posted.count
      rw [erased]
      omega
    | release now =>
      have swept := sweep_swept good result
      have front := congrArg List.length (leading_front good now)
      have released : (queueOf next).released.length =
          (queueOf info).released.length + (leading info now checkDeleteCount).length := by
        rw [queue, moveOf, RetireQueue.step, List.length_append, ← front, List.length_map]
      have nodes := swept.nodes
      have count := swept.count
      omega
    | walk =>
      have walked := walkFirst_spec info info.nodes
      have erased : (queueOf next).released = (queueOf info).released := by
        rw [queue]
        rfl
      cases result
      have nodes : (closeLoop info).nodes = info.nodes := walked.nodes
      have tasks : (closeLoop info).tasks = info.tasks := walked.tasks
      rw [erased, nodes, tasks]
      exact balanced
    | _ => cases about

/-- The first tasks are posted as by a tick of an empty `task_list`. -/
theorem begin_tick (begun : begin platform config hosts = some info) :
    info = MainInfo.initial ∨ step platform config MainInfo.initial (.tick hosts) = some info := by
  rw [begin_eq] at begun
  split at begun
  · exact Or.inr begun
  · exact Or.inl (Option.some.inj begun).symm

theorem begin_queue (begun : begin platform config hosts = some info) :
    Balanced info ∧ (queueOf info).released = [] := by
  rcases begin_tick begun with empty | ticked
  · subst empty
    exact ⟨rfl, rfl⟩
  · have empty : Balanced MainInfo.initial := rfl
    refine ⟨empty.step Good.initial ticked, ?_⟩
    rw [step_queue Good.initial ticked]
    rfl

theorem reachable_count_le (reached : Reachable platform config info) :
    info.tasks.count ≤ config.taskMinRunning.toNat - 1 + config.taskAddOnce.toNat := by
  refine (reachable_induction (fun hosts first begun => ?_)
    (fun _ _ _ good bound taken => count_bound_step good bound taken) reached).2
  rcases begin_tick begun with empty | ticked
  · subst empty
    exact Nat.zero_le _
  · exact count_bound_step Good.initial (Nat.zero_le _) ticked

theorem reachable_balanced (reached : Reachable platform config info) : Balanced info :=
  (reachable_induction (fun _ _ begun => (begin_queue begun).1)
    (fun _ _ _ good balanced taken => balanced.step good taken) reached).2

/-- Over a whole run, no more tasks are posted than `task_list` may hold and the sweeps have erased, which
is at most `CHECK_DELETE_COUNT` for each. -/
theorem posted_le (ran : session platform config hosts events = some info) :
    info.nodes = info.tasks.count + (queueOf info).released.length ∧
      info.nodes ≤ config.taskMinRunning.toNat - 1 + config.taskAddOnce.toNat +
        checkDeleteCount * events.countP isSweep := by
  have reached : Reachable platform config info := ⟨hosts, events, ran⟩
  have balanced : info.nodes = info.tasks.count + (queueOf info).released.length := reachable_balanced reached
  have bound := reachable_count_le reached
  obtain ⟨first, begun, rest⟩ := session_split.mp ran
  have released := released_run_le checkDeleteCount (queueOf first) (movesOf platform config first events)
  rw [← run_queue (begin_spec begun).1 rest, countP_movesOf rest, (begin_queue begun).2, List.length_nil] at released
  exact ⟨balanced, by omega⟩

end

/-- One task that is posted, fails to connect and is swept, and another after it. -/
theorem posted_le_two :
    ∃ info, session ⟨64, 32⟩ { mainConfig with taskMinRunning := 1, taskAddOnce := 1 } (fun _ => none)
        (refusedUnswept ++ [.release 10, .tick fun _ => some 0]) = some info ∧
      info.nodes = 2 ∧ info.nodes ≤ 1 + 3 * 1 := by
  obtain ⟨info, ran, nodes⟩ : ∃ info,
      session ⟨64, 32⟩ { mainConfig with taskMinRunning := 1, taskAddOnce := 1 } (fun _ => none)
        (refusedUnswept ++ [.release 10, .tick fun _ => some 0]) = some info ∧ info.nodes = 2 :=
    ⟨_, rfl, by decide⟩
  exact ⟨info, ran, nodes, (posted_le ran).2⟩

/-! The order of the erasures. -/

section
variable {platform : Platform} {config : MainConfig} {events : List Event} {event : Event}
  {info next last : MainInfo} {n p : Nat}

theorem count_erased (log : List (Nat × Act)) (n : Nat) :
    (log.filterMap erasedNode).count n = (actsOf log n).countP isErased := by
  induction log with
  | nil => rfl
  | cons entry rest ih =>
    obtain ⟨m, act⟩ := entry
    have split : actsOf ((m, act) :: rest) n = (if m = n then [act] else []) ++ actsOf rest n := by
      by_cases own : m = n <;> simp [actsOf, own]
    have front : ((m, act) :: rest).filterMap erasedNode =
        (if isErased act then [m] else []) ++ rest.filterMap erasedNode := by
      cases act <;> rfl
    rw [front, split, List.count_append, List.countP_append, ih]
    congr 1
    by_cases own : m = n <;> by_cases erased : isErased act = true <;> simp [own, erased]

theorem count_waiting (info : MainInfo) (n : Nat) : (queueOf info).waiting.count n = (view info n).marked := by
  have marks : (view info n).marked = info.tasks.toDeleteTaskList.countP fun node => node.ptask = n := rfl
  rw [marks, queueOf, List.count, List.countP_map]
  congr 1

/-- A task retires once, and is erased once. -/
theorem history_nodup (good : Good info) : (queueOf info).history.Nodup := by
  apply List.nodup_iff_count_le_one.mpr
  intro n
  have erased : (queueOf info).released.count n = (view info n).acts.countP isErased := count_erased info.log n
  rw [Queue.history, List.count_append, count_waiting, erased]
  by_cases bound : n < info.nodes
  · have placed := (good.lives n bound).placed
    have once := placed.once
    have kept := placed.kept
    rw [placed.erasedOnce]
    by_cases listed : (view info n).listed = true
    · rw [if_pos listed]
      omega
    · rw [if_neg listed]
      have unmarked : (view info n).marked ≠ 1 := fun marked => listed (kept marked)
      omega
  · have silent : (view info n).acts = [] := by
      apply List.filterMap_eq_nil_iff.mpr
      intro entry member
      have within := good.logged entry member
      rw [if_neg (by omega)]
    have unmarked : (view info n).marked = 0 := by
      apply List.countP_eq_zero.mpr
      intro node member
      have within := good.entries node member
      simp only [decide_eq_true_eq]
      omega
    rw [silent, unmarked]
    exact Nat.zero_le 1

theorem history_leads (good : Good info) (ran : Execution.run (step platform config) info events = some last) :
    (queueOf info).history <+: (queueOf last).history := by
  rw [run_queue good ran, history_run]
  exact List.prefix_append _ _

/-- Tasks are erased in the order in which they were put on `to_delete_task_list`, each of them once: later
states only add to the end of that order. -/
theorem erased_in_order (reached : Reachable platform config info)
    (ran : Execution.run (step platform config) info events = some last) :
    (queueOf info).released <+: (queueOf last).released ∧
      (queueOf last).released <+: (queueOf last).history ∧
      (queueOf info).history <+: (queueOf last).history ∧ (queueOf last).history.Nodup := by
  have good := reachable_good reached
  have kept : Good last := run_preserves (fun _ event _ good taken => step_good event good taken) good ran
  have released := released_run_leads checkDeleteCount (queueOf info) (movesOf platform config info events)
  rw [← run_queue good ran] at released
  exact ⟨released, List.prefix_append _ _, history_leads good ran, history_nodup kept⟩

end

/-- Five tasks that are refused one after another, the last one first. -/
def refusedBackwards : List Event := (.tick fun _ => some 0) :: [4, 3, 2, 1, 0].flatMap (refusal 0)

def fiveTasks : MainConfig := { mainConfig with taskMinRunning := 5, taskAddOnce := 5 }

/-- A sweep erases the three that were refused first, and a later one the others, but not the sixth task,
which was refused too late. -/
theorem erased_in_order_five :
    ∃ info last, session ⟨64, 32⟩ fiveTasks (fun _ => none) (refusedBackwards ++ [.release 2]) = some info ∧
      Execution.run (step ⟨64, 32⟩ fiveTasks) info
        ((.tick fun _ => some 0) :: refusal 3 5 ++ [.release 4]) = some last ∧
      (queueOf info).released = [4, 3, 2] ∧ (queueOf last).released = [4, 3, 2, 1, 0] ∧
      (queueOf last).waiting = [5] ∧
      (queueOf info).released <+: (queueOf last).released ∧
      (queueOf last).released <+: (queueOf last).history ∧
      (queueOf info).history <+: (queueOf last).history ∧ (queueOf last).history.Nodup := by
  obtain ⟨info, last, ran, later, before, after, waiting⟩ : ∃ info last,
      session ⟨64, 32⟩ fiveTasks (fun _ => none) (refusedBackwards ++ [.release 2]) = some info ∧
      Execution.run (step ⟨64, 32⟩ fiveTasks) info
        ((.tick fun _ => some 0) :: refusal 3 5 ++ [.release 4]) = some last ∧
      (queueOf info).released = [4, 3, 2] ∧ (queueOf last).released = [4, 3, 2, 1, 0] ∧
      (queueOf last).waiting = [5] := ⟨_, _, rfl, rfl, by decide, by decide, by decide⟩
  exact ⟨info, last, ran, later, before, after, waiting, erased_in_order ⟨_, _, ran⟩ later⟩

end EasyStressTest.Turnover
