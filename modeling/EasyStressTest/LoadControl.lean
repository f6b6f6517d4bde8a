import EasyStressTest.Reachability

/-!
How many tasks `task_list` holds, and what a tick of `timer_cb` adds to it. `timer_cb` compares
the size of `task_list`, in which closed tasks stay until a sweep takes them.
-/

namespace EasyStressTest.LoadControl
open Define Options Tasks Libuv Callbacks Loop Execution Lifecycle Simulation Population
open Posting Shutdown Sweep Reachability

section
variable {platform : Platform} {config : MainConfig} {info next : MainInfo} {event : Event}

/-- How many tasks a step adds. -/
def adds (platform : Platform) (config : MainConfig) (info : MainInfo) : Event → Nat
  | .tick hosts => tickAdds platform config info hosts
  | _ => 0

theorem tick_posted {hosts : Nat → Option UInt32} (good : Good info)
    (taken : step platform config info (.tick hosts) = some next) :
    Posted (builtin config) (tickAdds platform config info hosts) info next := by
  obtain ⟨allowed, result⟩ := step_eq_some.mp taken
  have unwalked : info.walked = false := by simpa [enabled] using allowed
  exact timerCb_posted good unwalked result

/-- Only ticks add tasks, and only sweeps remove some. -/
theorem step_counts (good : Good info) (taken : step platform config info event = some next) :
    next.nodes = info.nodes + adds platform config info event ∧
      next.tasks.count ≤ info.tasks.count + adds platform config info event := by
  obtain ⟨allowed, result⟩ := step_eq_some.mp taken
  cases about : target event with
  | some p =>
    have bound := target_bound about allowed
    have frame := (target_local about (good.lives p bound).routed allowed result).frame
    have none : adds platform config info event = 0 := by
      cases event <;> first | rfl | cases about
    rw [none, frame.nodes, CTasks.count, frame.taskList]
    exact ⟨rfl, Nat.le_refl _⟩
  | none =>
    cases event with
    | tick hosts =>
      have posted := tick_posted good taken
      exact ⟨posted.nodes, Nat.le_of_eq posted.count⟩
    | release now =>
      have swept := sweep_swept good result
      have fewer := swept.count
      exact ⟨swept.nodes, by simp only [adds]; omega⟩
    | walk =>
      cases result
      have walked := walkFirst_spec info info.nodes
      have tasks : (closeLoop info).tasks = info.tasks := walked.tasks
      rw [tasks]
      exact ⟨walked.nodes, Nat.le_refl _⟩
    | _ => cases about

theorem count_bound_step (good : Good info)
    (bound : info.tasks.count ≤ config.taskMinRunning.toNat - 1 + config.taskAddOnce.toNat)
    (taken : step platform config info event = some next) :
    next.tasks.count ≤ config.taskMinRunning.toNat - 1 + config.taskAddOnce.toNat := by
  have counts := (step_counts good taken).2
  cases event with
  | tick hosts =>
    have atMost := successes_le (initCallbacks platform.sizeBits config) hosts config.taskAddOnce.toNat
    simp only [adds, tickAdds] at counts
    split at counts
    · omega
    · omega
  | _ =>
    simp only [adds] at counts
    omega

/-- `task_list` never holds more than `task_min_running - 1 + task_add_once` tasks; a tick adds
one task for each successful `on_init`, and a failed attempt changes nothing. -/
theorem population_bound (reached : Reachable platform config info) :
    info.tasks.count ≤ config.taskMinRunning.toNat - 1 + config.taskAddOnce.toNat ∧
      (∀ hosts next, step platform config info (.tick hosts) = some next →
        next.nodes = info.nodes + tickAdds platform config info hosts ∧
          next.tasks.count = info.tasks.count + tickAdds platform config info hosts) ∧
      (∀ hosts, info.walked = false → info.nodes + config.taskAddOnce.toNat < 2 ^ 64 →
        ∃ next, step platform config info (.tick hosts) = some next) ∧
      (∀ host, onInitReturned (initCallbacks platform.sizeBits config) host < 0 →
        tcpTaskPost (initCallbacks platform.sizeBits config) info host = some (info, -1)) := by
  have begins : ∀ hosts first, begin platform config hosts = some first →
      first.tasks.count ≤ config.taskMinRunning.toNat - 1 + config.taskAddOnce.toNat := by
    intro hosts first begun
    rw [begin_eq] at begun
    split at begun
    · exact count_bound_step Good.initial (Nat.zero_le _) begun
    · rw [← Option.some.inj begun]
      exact Nat.zero_le _
  have bounded := reachable_induction begins
    (fun _ _ _ good bound taken => count_bound_step good bound taken) reached
  refine ⟨bounded.2, ?_, ?_, fun _ negative => tcpTaskPost_negative info negative⟩
  · intro hosts next taken
    have posted := tick_posted bounded.1 taken
    exact ⟨posted.nodes, posted.count⟩
  · intro hosts unwalked few
    obtain ⟨result, returns⟩ := postFirst_returns platform config hosts bounded.1 unwalked few
    by_cases low : info.tasks.count < config.taskMinRunning.toNat
    · refine ⟨result, step_eq_some.mpr ⟨by simp [enabled, unwalked], ?_⟩⟩
      rw [exec, timerCb_eq, if_pos low]
      exact returns
    · refine ⟨info, step_eq_some.mpr ⟨by simp [enabled, unwalked], ?_⟩⟩
      rw [exec, timerCb_eq, if_neg low]

end

/-- One tick of a session that keeps one task running and adds two at a time. -/
theorem population_bound_two :
    ∃ info, session ⟨64, 32⟩ { mainConfig with taskMinRunning := 1, taskAddOnce := 2 } (fun _ => none)
        [.tick fun i => if i = 0 then none else some 0, .tick fun _ => some 0] = some info ∧
      info.tasks.count ≤ 2 := by
  obtain ⟨info, ran⟩ : ∃ info,
      session ⟨64, 32⟩ { mainConfig with taskMinRunning := 1, taskAddOnce := 2 } (fun _ => none)
        [.tick fun i => if i = 0 then none else some 0, .tick fun _ => some 0] = some info := ⟨_, rfl⟩
  exact ⟨info, ran, (population_bound ⟨_, _, ran⟩).1⟩

/-! The tasks that run and those that wait for a sweep. -/

def isMarked (info : MainInfo) (n : Nat) : Bool :=
  info.tasks.toDeleteTaskList.any fun node => node.ptask == n

/-- The tasks of `task_list` that are not closed. -/
def running (info : MainInfo) : Nat :=
  info.tasks.taskList.entries.countP fun entry => !isMarked info entry.2

section
variable {platform : Platform} {config : MainConfig} {info next : MainInfo}

theorem mem_entries (key : UInt64) (n : Nat) :
    ⟨key, n⟩ ∈ info.tasks.taskList.entries ↔ info.tasks.find key = some n := by
  rw [CTasks.find, AList.lookup, Option.mem_def.symm, List.mem_dlookup_iff info.tasks.taskList.nodupKeys]

theorem isMarked_iff (n : Nat) :
    isMarked info n = true ↔ n ∈ info.tasks.toDeleteTaskList.map DeleteNode.ptask := by
  simp [isMarked, List.mem_map, List.any_eq_true]

theorem nodes_nodup (good : Good info) : (info.tasks.taskList.entries.map Sigma.snd).Nodup := by
  apply List.Nodup.map_on
  · intro left first right second same
    have owner := (good.keyed _ _ ((mem_entries left.1 left.2).mp first)).2
    have other := (good.keyed _ _ ((mem_entries right.1 right.2).mp second)).2
    have keys : left.1 = right.1 := by rw [← owner, ← other, same]
    exact Sigma.ext keys (heq_of_eq same)
  · exact info.tasks.taskList.nodupKeys.nodup

/-- The closed tasks of `task_list` are those of `to_delete_task_list`. -/
theorem marked_count (good : Good info) :
    info.tasks.taskList.entries.countP (fun entry => isMarked info entry.2) =
      info.tasks.toDeleteTaskList.length := by
  have left : ((info.tasks.taskList.entries.map Sigma.snd).filter (isMarked info)).Nodup :=
    (nodes_nodup good).filter _
  have same : List.Perm ((info.tasks.taskList.entries.map Sigma.snd).filter (isMarked info))
      (info.tasks.toDeleteTaskList.map DeleteNode.ptask) := by
    apply (List.perm_ext_iff_of_nodup left (marks_nodup good)).mpr
    intro n
    rw [List.mem_filter, isMarked_iff]
    apply Iff.intro
    · exact fun member => member.2
    · intro marked
      obtain ⟨node, member, own⟩ := List.mem_map.mp marked
      have listed := (listed_iff node.ptask).mp (good_entry good member).2
      rw [own] at listed
      exact ⟨List.mem_map.mpr ⟨_, (mem_entries _ n).mpr listed, rfl⟩, marked⟩
  have lengths := same.length_eq
  rw [List.length_map, ← List.countP_eq_length_filter, List.countP_map] at lengths
  exact lengths

theorem count_eq (good : Good info) :
    info.tasks.count = running info + info.tasks.toDeleteTaskList.length := by
  have closed := marked_count good
  have split := List.length_eq_countP_add_countP (fun entry => isMarked info entry.2)
    (l := info.tasks.taskList.entries)
  have others : info.tasks.taskList.entries.countP (fun entry => !isMarked info entry.2) =
      running info := rfl
  simp only [Bool.not_eq_true, Bool.decide_eq_false] at split
  rw [CTasks.count, split, closed, others, Nat.add_comm]

/-- With every `on_init` succeeding, a tick posts `task_add_once` tasks exactly when the tasks
that run and those that wait for a sweep are together fewer than `task_min_running`, and the
counter does not run into an id that is still taken. -/
theorem load_regulation_iff (reached : Reachable platform config info) (unwalked : info.walked = false)
    (once : 1 ≤ config.taskAddOnce.toNat) {hosts : Nat → Option UInt32}
    (succeed : ∀ i < config.taskAddOnce.toNat,
      0 ≤ onInitReturned (initCallbacks platform.sizeBits config) (hosts i)) :
    (∃ next, step platform config info (.tick hosts) = some next ∧
        next.nodes = info.nodes + config.taskAddOnce.toNat) ↔
      running info + info.tasks.toDeleteTaskList.length < config.taskMinRunning.toNat ∧
        ∀ i < config.taskAddOnce.toNat, Unused info i := by
  have good := reachable_good reached
  have small : config.taskAddOnce.toNat < 2 ^ 64 := by
    have bound := config.taskAddOnce.toNat_lt
    omega
  have ticks : step platform config info (.tick hosts) =
      if info.tasks.count < config.taskMinRunning.toNat then
        postFirst (initCallbacks platform.sizeBits config) hosts info config.taskAddOnce.toNat
      else some info := by simp [step, enabled, unwalked, exec, timerCb_eq]
  rw [← count_eq good, ← postFirst_all_iff info small succeed, ticks]
  by_cases low : info.tasks.count < config.taskMinRunning.toNat
  · rw [if_pos low]
    apply Iff.intro
    · rintro ⟨next, posts, _⟩
      exact ⟨low, next, posts⟩
    · rintro ⟨_, next, posts⟩
      have posted := postFirst_posted good unwalked posts
      refine ⟨next, posts, ?_⟩
      rw [posted.nodes, successes_all succeed]
  · rw [if_neg low]
    apply Iff.intro
    · rintro ⟨next, same, more⟩
      rw [← Option.some.inj same] at more
      omega
    · rintro ⟨lower, _⟩
      exact absurd lower low

end

/-- A task whose connection is refused, and which no sweep has taken yet. -/
def refusedUnswept : List Event := (.tick fun _ => some 0) :: refusal 0 0

/-- One of two tasks runs and the other waits for its sweep, and the tick posts two more. -/
theorem load_regulation_iff_refused :
    ∃ info next,
      session ⟨64, 32⟩ { mainConfig with taskMinRunning := 3, taskAddOnce := 2 } (fun _ => none) refusedUnswept =
        some info ∧
      running info = 1 ∧ info.tasks.toDeleteTaskList = [⟨0, 0⟩] ∧
      step ⟨64, 32⟩ { mainConfig with taskMinRunning := 3, taskAddOnce := 2 } info (.tick fun _ => some 0) =
        some next ∧
      next.nodes = info.nodes + 2 := by
  obtain ⟨info, ran, unwalked, runs, waiting, unused⟩ : ∃ info,
      session ⟨64, 32⟩ { mainConfig with taskMinRunning := 3, taskAddOnce := 2 } (fun _ => none) refusedUnswept =
        some info ∧
      info.walked = false ∧ running info = 1 ∧ info.tasks.toDeleteTaskList = [⟨0, 0⟩] ∧
      ∀ i < 2, Unused info i := ⟨_, rfl, by decide, by decide, by decide, by decide⟩
  have succeed : ∀ i < 2, 0 ≤ onInitReturned (initCallbacks 64 mainConfig) (some 0) := by decide
  have low : running info + info.tasks.toDeleteTaskList.length < 3 := by simp [runs, waiting]
  obtain ⟨next, taken, nodes⟩ :=
    (load_regulation_iff ⟨_, _, ran⟩ unwalked (by decide) succeed).mpr ⟨low, unused⟩
  exact ⟨info, next, ran, runs, waiting, taken, nodes⟩

/-- One task is to be kept running and none runs, but the tick adds nothing. -/
theorem load_unregulated :
    ∃ config info, effectiveConfig 32 ["stress".toList, "-mc=1".toList] = some config ∧
      session ⟨64, 32⟩ config (fun _ => none) refusedUnswept = some info ∧
      running info < config.taskMinRunning.toNat ∧
      ∃ next, step ⟨64, 32⟩ config info (.tick fun _ => some 0) = some next ∧
        next.nodes = info.nodes :=
  ⟨_, _, rfl, rfl, by decide, _, rfl, rfl⟩

end EasyStressTest.LoadControl
