import EasyStressTest.Assertions
import EasyStressTest.Interleaving
import EasyStressTest.Isolation
import EasyStressTest.Retirement

/-!
The order in which the callbacks of different tasks come. What the tasks are in the end, and how they
stand in `task_list` and `to_delete_task_list`, depends only on the order of each task's own events, of
the events that put tasks on `to_delete_task_list`, and of the ticks, the sweeps and the walk.
-/

namespace EasyStressTest.Commutation
open Define HttpTask Options Tasks Libuv Callbacks Loop Execution Lifecycle Simulation Population
open Posting Shutdown Sweep Reachability Progress Assertions Interleaving Isolation Retirement

/-- The events that can put their task on `to_delete_task_list`. -/
def mayRetire : Event → Bool
  | .connected _ status _ _ => status != 0
  | .closed _ _ => true
  | _ => false

/-- Two events are about different tasks, and do not both put them on `to_delete_task_list`. -/
def Independent (first second : Event) : Prop :=
  ∃ p q, target first = some p ∧ target second = some q ∧ p ≠ q ∧ (mayRetire first = false ∨ mayRetire second = false)

/-- Two states differ only in the order in which things were done with different tasks, in what is erased
from the history, and in the failed assertions. -/
structure Alike (info other : MainInfo) : Prop where
  nodes : other.nodes = info.nodes
  walked : other.walked = info.walked
  tasks : other.tasks = info.tasks
  each : ∀ n < info.nodes, own (view other n) = own (view info n)

section
variable {platform : Platform} {config : MainConfig} {info other third next answer : MainInfo} {event : Event}
  {p : Nat}

theorem Alike.refl (info : MainInfo) : Alike info info := ⟨rfl, rfl, rfl, fun _ _ => rfl⟩

theorem Alike.trans (first : Alike info other) (second : Alike other third) : Alike info third where
  nodes := second.nodes.trans first.nodes
  walked := second.walked.trans first.walked
  tasks := second.tasks.trans first.tasks
  each := fun n bound => (second.each n (by rw [first.nodes]; exact bound)).trans (first.each n bound)

theorem tasks_eq {first second : CTasks} (lists : second.taskList = first.taskList)
    (entries : second.toDeleteTaskList = first.toDeleteTaskList) (counter : second.curId = first.curId) :
    second = first := by
  cases first
  cases second
  rw [CTasks.mk.injEq]
  exact ⟨lists, entries, counter⟩

/-! A step about one task. -/

theorem concerns_target (about : target event = some p) : concerns p event = true := by
  cases event <;> simp_all [concerns, target]

theorem enabled_same (about : target event = some p) (bound : p < info.nodes) (inside : p < other.nodes)
    (heap : other.heap p = info.heap p) : enabled other event = enabled info event := by
  cases event with
  | tick hosts => cases about
  | release now => cases about
  | walk => cases about
  | _ =>
    cases about
    simp only [enabled, heap, bound, inside]

theorem moveOf_same (about : target event = some p) (heap : other.heap p = info.heap p) :
    moveOf other event = moveOf info event := by
  cases event with
  | tick hosts => cases about
  | release now => cases about
  | walk => cases about
  | _ =>
    cases about
    simp only [moveOf, heap]

theorem moveOf_kept (unretired : mayRetire event = false) (q : Nat) : moveOf info event ≠ .retire q := by
  cases event with
  | connected n status now written =>
    have succeeded : status = 0 := by simpa [mayRetire] using unretired
    simp [moveOf, succeeded]
  | closed n now => cases unretired
  | _ => simp [moveOf]

theorem same_marks (retires : Retires info event next) (also : Retires other event answer)
    (move : moveOf other event = moveOf info event) :
    ∃ marks, Noted marks info next ∧ Noted marks other answer ∧ (mayRetire event = false → marks = []) := by
  rcases retires with ⟨rests, noted⟩ | ⟨q, retired, noted⟩
  · rcases also with ⟨_, beside⟩ | ⟨_, elsewhere, _⟩
    · exact ⟨[], noted, beside, fun _ => rfl⟩
    · rw [move, rests] at elsewhere
      cases elsewhere
  · rcases also with ⟨rests, _⟩ | ⟨_, elsewhere, beside⟩
    · rw [move, retired] at rests
      cases rests
    · rw [move, retired] at elsewhere
      cases elsewhere
      exact ⟨_, noted, beside, fun unretired => absurd retired (moveOf_kept unretired q)⟩

/-- A step about a task does the same wherever the task is the same. -/
structure Together (p : Nat) (event : Event) (marks : List DeleteNode) (info next other answer : MainInfo) : Prop where
  frame : Frame p info next
  beside : Frame p other answer
  same : own (view answer p) = own (view next p)
  noted : Noted marks info next
  also : Noted marks other answer
  kept : mayRetire event = false → marks = []

theorem target_same (reached : Reachable platform config info) (also : Reachable platform config other)
    (about : target event = some p) (inside : p < other.nodes) (same : own (view other p) = own (view info p))
    (taken : step platform config info event = some next) :
    ∃ answer marks, step platform config other event = some answer ∧ Together p event marks info next other answer := by
  obtain ⟨allowed, result⟩ := step_eq_some.mp taken
  have bound := target_bound about allowed
  have heap : other.heap p = info.heap p := congrArg Own.task same
  have permitted : enabled other event = true := by
    rw [enabled_same about bound inside heap]
    exact allowed
  have untimed : ∀ hosts, event ≠ .tick hosts := by
    intro hosts ticks
    rw [ticks] at about
    cases about
  obtain ⟨answer, returns⟩ := untimed_returns also permitted untimed
  have routed := ((reachable_good reached).lives p bound).routed
  have beside := ((reachable_good also).lives p inside).routed
  have here := target_local about routed allowed result
  have there := target_local about beside permitted returns
  obtain ⟨marks, noted, marked, kept⟩ :=
    same_marks (target_retires about routed result) (target_retires about beside returns) (moveOf_same about heap)
  refine ⟨answer, marks, step_eq_some.mpr ⟨permitted, returns⟩, here.frame, there.frame, ?_, noted, marked, kept⟩
  rw [replay_life (concerns_target about) here.life, replay_life (concerns_target about) there.life, same]

theorem Alike.target (alike : Alike info other) (reached : Reachable platform config info)
    (also : Reachable platform config other) (about : target event = some p)
    (taken : step platform config info event = some next) :
    ∃ answer, step platform config other event = some answer ∧ Alike next answer := by
  have bound := target_bound about (step_eq_some.mp taken).1
  have inside : p < other.nodes := by rwa [alike.nodes]
  obtain ⟨answer, marks, returns, together⟩ := target_same reached also about inside (alike.each p bound) taken
  obtain ⟨frame, beside, same, noted, marked, _⟩ := together
  refine ⟨answer, returns, ?_, ?_, tasks_eq ?_ ?_ ?_, fun n before => ?_⟩
  · rw [beside.nodes, frame.nodes, alike.nodes]
  · rw [beside.walked, frame.walked, alike.walked]
  · rw [beside.taskList, frame.taskList, alike.tasks]
  · rw [marked.entries, noted.entries, alike.tasks]
  · rw [beside.curId, frame.curId, alike.tasks]
  · by_cases self : n = p
    · rw [self]
      exact same
    · rw [frame.apart n self, beside.apart n self]
      exact alike.each n (by rwa [frame.nodes] at before)

/-- Events about two tasks can come in either order. -/
theorem diamond {first second : Event} {middle last : MainInfo} (reached : Reachable platform config info)
    (apart : Independent first second) (taken : step platform config info first = some middle)
    (follows : step platform config middle second = some last) :
    ∃ aside final, step platform config info second = some aside ∧ step platform config aside first = some final ∧
      Alike last final := by
  obtain ⟨p, q, about, elsewhere, different, once⟩ := apart
  have between := reachable_step reached taken
  have bound := target_bound about (step_eq_some.mp taken).1
  have routed := ((reachable_good reached).lives p bound).routed
  have frame := (target_local about routed (step_eq_some.mp taken).1 (step_eq_some.mp taken).2).frame
  have inside : q < info.nodes := by
    rw [← frame.nodes]
    exact target_bound elsewhere (step_eq_some.mp follows).1
  have untouched : own (view info q) = own (view middle q) := by rw [frame.apart q (Ne.symm different)]
  obtain ⟨aside, marks, earlier, second_first⟩ :=
    target_same between reached elsewhere inside untouched follows
  have still : own (view aside p) = own (view info p) := by rw [second_first.beside.apart p different]
  have bound_aside : p < aside.nodes := by rwa [second_first.beside.nodes]
  obtain ⟨final, more, later, first_second⟩ :=
    target_same reached (reachable_step reached earlier) about bound_aside still taken
  refine ⟨aside, final, earlier, later, ?_, ?_, tasks_eq ?_ ?_ ?_, fun n before => ?_⟩
  · rw [first_second.beside.nodes, second_first.beside.nodes, second_first.frame.nodes, frame.nodes]
  · rw [first_second.beside.walked, second_first.beside.walked, second_first.frame.walked, frame.walked]
  · rw [first_second.beside.taskList, second_first.beside.taskList, second_first.frame.taskList, frame.taskList]
  · rw [first_second.also.entries, second_first.also.entries, second_first.noted.entries, first_second.noted.entries]
    rcases once with kept | kept
    · rw [first_second.kept kept, List.append_nil, List.append_nil]
    · rw [second_first.kept kept, List.append_nil, List.append_nil]
  · rw [first_second.beside.curId, second_first.beside.curId, second_first.frame.curId, frame.curId]
  · by_cases self : n = p
    · rw [self, first_second.same, second_first.frame.apart p different]
    · rw [first_second.beside.apart n self]
      by_cases other : n = q
      · rw [other, second_first.same]
      · rw [second_first.beside.apart n other, second_first.frame.apart n other, frame.apart n self]

/-! The other steps. -/

theorem each_step (alike : Alike info other) (good : Good info) (also : Good other)
    (taken : step platform config info event = some next) (beside : step platform config other event = some answer) :
    ∀ n < info.nodes, own (view answer n) = own (view next n) := by
  intro n bound
  have here := (step_advance good taken).lived n bound
  have there := (step_advance also beside).lived n (by rwa [alike.nodes])
  cases concerned : concerns n event with
  | true => rw [replay_life concerned here, replay_life concerned there, alike.each n bound]
  | false => rw [own_apart concerned here, own_apart concerned there, alike.each n bound]

/-- The sweep looks at the lists and at the tasks on them. -/
theorem sweepLoop_same {t : Int} {left piter : Nat} (tasks : other.tasks = info.tasks)
    (heaps : ∀ node ∈ info.tasks.toDeleteTaskList, other.heap node.ptask = info.heap node.ptask)
    (swept : sweepLoop t left piter info = some next) :
    ∃ answer, sweepLoop t left piter other = some answer ∧ answer.tasks = next.tasks := by
  induction left generalizing info other with
  | zero =>
    cases swept
    exact ⟨other, rfl, tasks⟩
  | succ left ih =>
    rw [sweepLoop] at swept ⊢
    rw [tasks]
    by_cases at_end : piter = info.tasks.toDeleteTaskList.length
    · rw [if_pos at_end] at swept ⊢
      cases swept
      exact ⟨other, rfl, tasks⟩
    · rw [if_neg at_end] at swept ⊢
      obtain ⟨node, entry, goes⟩ := Option.bind_eq_some_iff.mp swept
      have heap := heaps node (List.mem_of_getElem? entry)
      rw [entry]
      simp only [Option.bind_eq_bind, Option.bind_some, heap]
      split at goes
      next ready =>
        rw [if_pos ready]
        have erased : (other.eraseAt piter node).tasks = (info.eraseAt piter node).tasks := by
          simp only [MainInfo.eraseAt, MainInfo.act, tasks, heap]
        have remaining : ∀ rest ∈ (info.eraseAt piter node).tasks.toDeleteTaskList,
            (other.eraseAt piter node).heap rest.ptask = (info.eraseAt piter node).heap rest.ptask :=
          fun rest member => heaps rest (List.mem_of_mem_eraseIdx member)
        exact ih erased remaining goes
      next unready =>
        rw [if_neg unready]
        cases goes
        exact ⟨other, rfl, tasks⟩

theorem Alike.release {now : Int} (alike : Alike info other) (good : Good info) (also : Good other)
    (taken : step platform config info (.release now) = some next) :
    ∃ answer, step platform config other (.release now) = some answer ∧ Alike next answer := by
  obtain ⟨allowed, result⟩ := step_eq_some.mp taken
  have heaps : ∀ node ∈ info.tasks.toDeleteTaskList, other.heap node.ptask = info.heap node.ptask :=
    fun node member => congrArg Own.task (alike.each node.ptask (good.entries node member))
  obtain ⟨answer, returns, tasks⟩ : ∃ answer, exec platform config other (.release now) = some answer ∧
      answer.tasks = next.tasks := by
    simp only [exec, timerReleaseCb, MainInfo.deleteTaskToBeDeleted, alike.tasks] at result ⊢
    split at result
    next some_entry =>
      rw [if_pos some_entry]
      exact sweepLoop_same alike.tasks heaps result
    next no_entry =>
      rw [if_neg no_entry]
      cases result
      exact ⟨other, rfl, alike.tasks⟩
  have permitted : enabled other (.release now) = true := by
    rw [← allowed]
    simp only [enabled, alike.walked]
  have beside := step_eq_some.mpr ⟨permitted, returns⟩
  have here := sweep_swept good result
  have there := sweep_swept also returns
  refine ⟨answer, beside, ?_, ?_, tasks, fun n bound => ?_⟩
  · rw [there.nodes, here.nodes, alike.nodes]
  · rw [there.walked, here.walked, alike.walked]
  · exact each_step alike good also taken beside n (by rwa [here.nodes] at bound)

theorem Alike.walk (alike : Alike info other) (good : Good info) (also : Good other)
    (taken : step platform config info .walk = some next) :
    ∃ answer, step platform config other .walk = some answer ∧ Alike next answer := by
  obtain ⟨allowed, result⟩ := step_eq_some.mp taken
  have permitted : enabled other .walk = true := by
    rw [← allowed]
    simp only [enabled, alike.walked]
  have beside : step platform config other .walk = some (closeLoop other) := step_eq_some.mpr ⟨permitted, rfl⟩
  have each := each_step alike good also taken beside
  cases result
  have here := walkFirst_spec info info.nodes
  have there := walkFirst_spec other other.nodes
  have nodes : (closeLoop info).nodes = info.nodes := here.nodes
  have nodes_there : (closeLoop other).nodes = other.nodes := there.nodes
  have tasks : (closeLoop info).tasks = info.tasks := here.tasks
  have tasks_there : (closeLoop other).tasks = other.tasks := there.tasks
  refine ⟨closeLoop other, beside, ?_, rfl, ?_, fun n bound => ?_⟩
  · rw [nodes_there, nodes, alike.nodes]
  · rw [tasks_there, tasks, alike.tasks]
  · exact each n (by rwa [nodes] at bound)

theorem Alike.assert (alike : Alike info other) (assertion : Assertion) (expr : Bool) :
    Alike (info.assert assertion expr) (other.assert assertion expr) := by
  unfold MainInfo.assert
  split
  · exact alike
  · exact ⟨alike.nodes, alike.walked, alike.tasks, alike.each⟩

theorem Alike.insertNewborn (alike : Alike info other) (good : Good info) (also : Good other)
    (unwalked : info.walked = false) (fresh : info.tasks.curId + 1 ∉ info.tasks.taskList) (http : Bool)
    (addr : SockaddrIn) : Alike (insertNewborn http info addr) (insertNewborn http other addr) where
  nodes := congrArg (· + 1) alike.nodes
  walked := alike.walked
  tasks := by
    unfold Posting.insertNewborn
    rw [alike.nodes, alike.tasks]
  each := by
    intro n bound
    have fresh_beside : other.tasks.curId + 1 ∉ other.tasks.taskList := by rwa [alike.tasks]
    have unwalked_beside : other.walked = false := by rw [alike.walked, unwalked]
    by_cases last : n = info.nodes
    · have new := insertNewborn_new http also unwalked_beside addr
      rw [alike.nodes] at new
      rw [last, new, insertNewborn_new http good unwalked addr]
    · have old : n < info.nodes := Nat.lt_of_le_of_ne (Nat.le_of_lt_succ bound) last
      have old_beside : n < other.nodes := by rwa [alike.nodes]
      rw [insertNewborn_old addr fresh old, insertNewborn_old addr fresh_beside old_beside]
      exact alike.each n old

/-- An attempt of `timer_cb` does the same in every state, but for the id that it may find taken. -/
theorem tcpTaskPost_anywhere (platform : Platform) (config : MainConfig) (host : Option UInt32) :
    (∀ info, tcpTaskPost (initCallbacks platform.sizeBits config) info host = some (info, -1)) ∨
      ∃ addr, ∀ info, tcpTaskPost (initCallbacks platform.sizeBits config) info host =
        if info.tasks.curId + 1 ∈ info.tasks.taskList then none
        else some (insertNewborn (builtin config) info addr, 0) := by
  cases table : builtin config with
  | false => exact Or.inr ⟨_, fun _ => tcpTaskPost_script table host⟩
  | true =>
    cases host with
    | none =>
      left
      intro info
      apply tcpTaskPost_negative
      rw [initCallbacks_http _ table]
      change (-1 : Int) < 0
      decide
    | some address => exact Or.inr ⟨_, fun _ => tcpTaskPost_http table address⟩

theorem Alike.tcpTaskPost {host : Option UInt32} {r : Int} (alike : Alike info other) (good : Good info)
    (also : Good other) (unwalked : info.walked = false)
    (posts : tcpTaskPost (initCallbacks platform.sizeBits config) info host = some (next, r)) :
    ∃ answer, tcpTaskPost (initCallbacks platform.sizeBits config) other host = some (answer, r) ∧
      Alike next answer := by
  rcases tcpTaskPost_anywhere platform config host with refused | ⟨addr, inserts⟩
  · rw [refused] at posts
    cases posts
    exact ⟨other, refused other, alike⟩
  · rw [inserts] at posts
    split at posts
    next => cases posts
    next fresh =>
      cases posts
      refine ⟨_, ?_, alike.insertNewborn good also unwalked fresh (builtin config) addr⟩
      rw [inserts, alike.tasks, if_neg fresh]

theorem Alike.postFirst {hosts : Nat → Option UInt32} {count : Nat} (alike : Alike info other) (good : Good info)
    (also : Good other) (unwalked : info.walked = false)
    (posts : postFirst (initCallbacks platform.sizeBits config) hosts info count = some next) :
    ∃ answer, postFirst (initCallbacks platform.sizeBits config) hosts other count = some answer ∧
      Alike next answer := by
  induction count generalizing next with
  | zero =>
    cases posts
    exact ⟨other, rfl, alike⟩
  | succ count ih =>
    rw [postFirst_succ] at posts
    obtain ⟨middle, before, last⟩ := Option.bind_eq_some_iff.mp posts
    obtain ⟨⟨result, r⟩, attempt, same⟩ := Option.map_eq_some_iff.mp last
    obtain ⟨between, beside, still⟩ := ih before
    have first := postFirst_posted good unwalked before
    have first_beside := postFirst_posted also (alike.walked.trans unwalked) beside
    obtain ⟨answer, attempted, ends⟩ :=
      still.tcpTaskPost first.good first_beside.good (first.walked.trans unwalked) attempt
    refine ⟨answer.assert .timerPosted (r ≥ 0), ?_, ?_⟩
    · rw [postFirst_succ, beside, Option.bind_some, attempted, Option.map_some]
    · rw [← same]
      exact ends.assert _ _

theorem Alike.tick {hosts : Nat → Option UInt32} (alike : Alike info other) (good : Good info) (also : Good other)
    (taken : step platform config info (.tick hosts) = some next) :
    ∃ answer, step platform config other (.tick hosts) = some answer ∧ Alike next answer := by
  obtain ⟨allowed, result⟩ := step_eq_some.mp taken
  have unwalked : info.walked = false := by simpa [enabled] using allowed
  have permitted : enabled other (.tick hosts) = true := by
    rw [← allowed]
    simp only [enabled, alike.walked]
  rw [exec, timerCb_eq] at result
  obtain ⟨answer, returns, ends⟩ : ∃ answer, exec platform config other (.tick hosts) = some answer ∧
      Alike next answer := by
    rw [exec, timerCb_eq, alike.tasks]
    split at result
    next low =>
      rw [if_pos low]
      exact alike.postFirst good also unwalked result
    next full =>
      rw [if_neg full]
      cases result
      exact ⟨other, rfl, alike⟩
  exact ⟨answer, step_eq_some.mpr ⟨permitted, returns⟩, ends⟩

theorem commutes (platform : Platform) (config : MainConfig) :
    Commutes (step platform config) Independent Alike (Reachable platform config) where
  refl := Alike.refl
  trans := fun _ _ _ first second => first.trans second
  preserved := fun _ _ _ reached taken => reachable_step reached taken
  diamond := fun _ _ _ _ _ reached apart taken follows => diamond reached apart taken follows
  respects := by
    intro info other event next reached also alike taken
    have good := reachable_good reached
    have beside := reachable_good also
    cases about : target event with
    | some p => exact alike.target reached also about taken
    | none =>
      cases event with
      | tick hosts => exact alike.tick good beside taken
      | release now => exact alike.release good beside taken
      | walk => exact alike.walk good beside taken
      | _ => cases about

/-- A run in which callbacks of different tasks change places is a run too, and ends with the same tasks in
the same lists, unless both put their tasks on `to_delete_task_list`. -/
theorem rearranged_runs {events others : List Event} {last : MainInfo} (reached : Reachable platform config info)
    (rearranged : Rearranged Independent events others) (ran : run (step platform config) info events = some last) :
    ∃ final, run (step platform config) info others = some final ∧ Alike last final :=
  (commutes platform config).run_rearranged reached rearranged ran

end

/-- The worker threads of two tasks, in both orders. -/
theorem rearranged_runs_two :
    ∃ info last final, session ⟨64, 32⟩ { mainConfig with taskAddOnce := 2 } (fun _ => none)
        [.tick fun _ => some 0] = some info ∧
      run (step ⟨64, 32⟩ { mainConfig with taskAddOnce := 2 }) info [.workInit 0, .workInit 1, .workConnect 0 0] =
        some last ∧
      run (step ⟨64, 32⟩ { mainConfig with taskAddOnce := 2 }) info [.workInit 0, .workConnect 0 0, .workInit 1] =
        some final ∧ Alike last final := by
  obtain ⟨info, last, ran, further⟩ : ∃ info last,
      session ⟨64, 32⟩ { mainConfig with taskAddOnce := 2 } (fun _ => none) [.tick fun _ => some 0] = some info ∧
      run (step ⟨64, 32⟩ { mainConfig with taskAddOnce := 2 }) info [.workInit 0, .workInit 1, .workConnect 0 0] =
        some last := ⟨_, _, rfl, rfl⟩
  have apart : Independent (.workInit 1) (.workConnect 0 0) := ⟨1, 0, rfl, rfl, by decide, Or.inl rfl⟩
  have rearranged : Rearranged Independent [.workInit 0, .workInit 1, .workConnect 0 0]
      [.workInit 0, .workConnect 0 0, .workInit 1] :=
    Relation.ReflTransGen.single (Swap.swap [Event.workInit 0] [] apart)
  obtain ⟨final, answers, alike⟩ := rearranged_runs ⟨_, _, ran⟩ rearranged further
  exact ⟨info, last, final, ran, further, answers, alike⟩

end EasyStressTest.Commutation
