import EasyStressTest.Turnover

/-!
How long a closed task waits for its sweep: the sweeps take the entries in order, so it waits for those
before it.
-/

namespace EasyStressTest.SweepDelay
open Define HttpTask Options Tasks Libuv Callbacks Loop Execution Lifecycle Simulation Population
open Posting Shutdown Sweep Reachability LoadControl RetireQueue Retirement Turnover

/-! One life. -/

/-- A task with an entry has a closing handle and no request. -/
structure Parked (view : View) : Prop where
  settled : 0 < view.marked → uvIsClosing view.task.conn = true ∧ view.task.connectReq.submitted = [] ∧
    view.task.conn.readPending = false ∧ Past view.task
  notified : view.task.conn.state = .closing true → Past view.task

section
variable {sizeBits : Nat} {http : Bool} {n : Nat} {event : Event} {before after : View}

theorem Parked.newborn (id : UInt64) (addr : SockaddrIn) : Parked (newborn http n id addr) where
  settled := fun positive => absurd positive (Nat.lt_irrefl 0)
  notified := by simp [Lifecycle.newborn, posted, TcpTask.zero]

/-- A task whose handle was open has no entry yet. -/
theorem Parked.fresh {view : View} (parked : Parked before) (unclosed : uvIsClosing before.task.conn = false)
    (marked : view.marked = before.marked) (notified : view.task.conn.state = .closing true → Past view.task) :
    Parked view := by
  refine ⟨fun positive => ?_, notified⟩
  rw [marked] at positive
  simp [(parked.settled positive).1] at unclosed

theorem Parked.step (parked : Parked before) (control : Control before.task)
    (taken : LifeStep sizeBits http n event before after) : Parked after := by
  have notified := parked.notified
  cases taken with
  | other => exact parked
  | erase => exact ⟨fun positive => absurd positive (Nat.lt_irrefl 0), notified⟩
  | walkOpen opened =>
    exact parked.fresh ((uvIsClosing_eq_false _).mpr (Or.inr opened)) rfl (by simp)
  | walkOther => exact ⟨parked.settled, notified⟩
  | workInit queued =>
    have absent := control.absent.mpr queued
    exact parked.fresh ((uvIsClosing_eq_false _).mpr (Or.inl absent)) rfl (by simp)
  | workConnect initialised =>
    refine ⟨fun positive => absurd initialised (parked.settled positive).2.2.2.2, ?_⟩
    intro _
    simp [Past]
  | workReturn connected =>
    refine ⟨fun positive => ?_, fun _ => by simp [Past]⟩
    obtain ⟨closing, drained, retired, _⟩ := parked.settled positive
    exact ⟨closing, drained, retired, by simp [Past]⟩
  | afterWork returned =>
    refine ⟨fun positive => ?_, fun _ => by simp [Past]⟩
    obtain ⟨closing, drained, retired, _⟩ := parked.settled positive
    exact ⟨closing, drained, retired, by simp [Past]⟩
  | connectOk submitted unclosed =>
    exact parked.fresh unclosed rfl fun _ => by simpa [Past] using control.past submitted
  | connectBare submitted unclosed => exact parked.fresh unclosed rfl fun _ => control.past submitted
  | connectFail failed submitted unclosed =>
    have quiet := control.connecting submitted
    have past := control.past submitted
    exact ⟨fun _ => ⟨by simp [uvIsClosing], control.completed submitted, quiet.2, past⟩, fun _ => past⟩
  | connectCancelled failed submitted =>
    refine ⟨fun positive => ?_, notified⟩
    obtain ⟨closing, drained, retired, past⟩ := parked.settled positive
    exact ⟨closing, control.completed submitted, retired, past⟩
  | readNone => exact parked
  | readError reads =>
    have past := control.past_of_reading reads
    exact parked.fresh (isReading_unclosed reads) rfl fun _ => past
  | readMore reads =>
    have past := control.past_of_reading reads
    exact parked.fresh (isReading_unclosed reads) rfl fun _ => past
  | readEnd reads =>
    have past := control.past_of_reading reads
    exact parked.fresh (isReading_unclosed reads) rfl fun _ => past
  | readBare => exact parked
  | writeOk submitted unclosed => exact parked.fresh unclosed rfl fun _ => control.past submitted
  | writeError failed submitted unclosed => exact parked.fresh unclosed rfl fun _ => control.past submitted
  | writeCancelled failed submitted =>
    refine ⟨fun positive => ?_, notified⟩
    obtain ⟨closing, drained, retired, past⟩ := parked.settled positive
    exact ⟨closing, control.completed submitted, retired, past⟩
  | readRetired =>
    refine ⟨fun positive => ?_, notified⟩
    obtain ⟨closing, drained, retired, past⟩ := parked.settled positive
    exact ⟨closing, drained, rfl, past⟩
  | closedQuiet closing =>
    refine ⟨fun positive => ?_, by simp⟩
    obtain ⟨_, drained, retired, past⟩ := parked.settled positive
    exact ⟨rfl, drained, retired, past⟩
  | closedNotify closing retired drained =>
    exact ⟨fun _ => ⟨rfl, drained, retired, notified closing⟩, by simp⟩

end

/-! All lives together. -/

section
variable {platform : Platform} {config : MainConfig} {events : List Event} {event : Event}
  {info next last : MainInfo} {n p : Nat}

/-- The entry of a task that has retired stays as it is. -/
theorem entries_step (good : Good info) (taken : step platform config info event = some next)
    {node : DeleteNode} (member : node ∈ next.tasks.toDeleteTaskList) :
    node ∈ info.tasks.toDeleteTaskList ∨ node.ptask ∉ (queueOf info).history := by
  have kept := history_nodup (step_good event good taken)
  have same : ∀ {state}, Noted [] info state → node ∈ state.tasks.toDeleteTaskList →
      node ∈ info.tasks.toDeleteTaskList := by
    intro state noted among
    rwa [noted.entries, List.append_nil] at among
  obtain ⟨allowed, result⟩ := step_eq_some.mp taken
  cases about : target event with
  | some p =>
    rcases target_retires about (good.lives p (target_bound about allowed)).routed result with
      ⟨_, noted⟩ | ⟨q, move, noted⟩
    · exact Or.inl (same noted member)
    · rw [noted.entries] at member
      rcases List.mem_append.mp member with old | fresh
      · exact Or.inl old
      · right
        intro retired
        rw [step_queue good taken, history_step, move, List.nodup_append] at kept
        exact kept.2.2 _ retired q (List.mem_singleton_self q) (by rw [List.mem_singleton.mp fresh])
  | none =>
    left
    cases event with
    | tick hosts =>
      rw [← (tick_posted good taken).entries]
      exact member
    | release now =>
      rw [(sweep_swept good result).entries]
      exact List.mem_append_right _ member
    | walk =>
      cases result
      have walked := walkFirst_noted info info.nodes
      exact same ⟨walked.entries, walked.erasures⟩ member
    | _ => cases about

theorem entries_run (good : Good info) (ran : Execution.run (step platform config) info events = some last)
    {node : DeleteNode} (member : node ∈ last.tasks.toDeleteTaskList) :
    node ∈ info.tasks.toDeleteTaskList ∨ node.ptask ∉ (queueOf info).history := by
  induction events generalizing info with
  | nil =>
    cases ran
    exact Or.inl member
  | cons event rest ih =>
    obtain ⟨middle, taken, later⟩ := (Execution.run_cons _ info last event rest).mp ran
    have step : Execution.run (step platform config) info [event] = some middle := by
      rw [Execution.run, taken]
      rfl
    rcases ih (step_good event good taken) later with old | fresh
    · exact entries_step good taken old
    · exact Or.inr fun retired => fresh ((history_leads good step).subset retired)

theorem hasty_step {sizeBits : Nat} {http : Bool} {before after : View}
    (hasty : before.task.deleteImmediately = true)
    (taken : LifeStep sizeBits http n event before after) : after.task.deleteImmediately = true := by
  cases taken <;> simp [hasty]

theorem hasty_run (good : Good info) (ran : Execution.run (step platform config) info events = some last)
    (bound : n < info.nodes) (hasty : (info.heap n).deleteImmediately = true) :
    (last.heap n).deleteImmediately = true := by
  have kept : ∀ state event next, (Good state ∧ n < state.nodes ∧ (state.heap n).deleteImmediately = true) →
      step platform config state event = some next →
      Good next ∧ n < next.nodes ∧ (next.heap n).deleteImmediately = true := by
    rintro state event next ⟨good, bound, hasty⟩ taken
    have advance := step_advance good taken
    have still : (view state n).task.deleteImmediately = true := hasty
    exact ⟨advance.good, Nat.lt_of_lt_of_le bound advance.grown, hasty_step still (advance.lived n bound)⟩
  exact (run_preserves kept ⟨good, bound, hasty⟩ ran).2.2

theorem reachable_parked (reached : Reachable platform config info) : ∀ n < info.nodes, Parked (view info n) :=
  reachable_lives (fun _ id addr => Parked.newborn id addr)
    (fun _ _ _ _ life parked taken => parked.step life.control taken) reached

/-- A task with an entry is releasable as soon as its time has come. -/
theorem parked_releasable (reached : Reachable platform config info) {node : DeleteNode}
    (member : node ∈ info.tasks.toDeleteTaskList) {now : Int}
    (due : (info.heap node.ptask).deleteImmediately = true ∨ timeoutForRelease < now - node.timeDeleted) :
    releasable (info.heap node.ptask) node.timeDeleted now = true := by
  have good := reachable_good reached
  have bound := good.entries node member
  obtain ⟨closing, drained, retired, _⟩ := (reachable_parked reached node.ptask bound).settled (marked_of_mem member)
  have counted : Counted (info.heap node.ptask) := (good.lives node.ptask bound).counted
  have empty : (info.heap node.ptask).connectReq.submitted = [] := drained
  have unread : (info.heap node.ptask).conn.readPending = false := retired
  have requests : (info.heap node.ptask).conn.reqsPending = 0 := by
    rw [counted.reqsPending, empty, unread]
    rfl
  have active : (info.heap node.ptask).conn.activecnt = 0 := by
    rw [counted.activecnt, empty, unread]
    rfl
  have closed : uvIsClosing (info.heap node.ptask).conn = true := closing
  simp only [releasable, closed, requests, active, beq_self_eq_true, Bool.and_true, Bool.or_eq_true,
    decide_eq_true_eq]
  exact due

/-- At this time the task of each of the first p + 1 entries is to be released. -/
def DueBy (info : MainInfo) (p : Nat) (now : Int) : Prop :=
  ∀ node ∈ info.tasks.toDeleteTaskList.take (p + 1),
    (info.heap node.ptask).deleteImmediately = true ∨ timeoutForRelease < now - node.timeDeleted

instance (info : MainInfo) (p : Nat) (now : Int) : Decidable (DueBy info p now) :=
  inferInstanceAs (Decidable (∀ _ ∈ _, _))

theorem due_serves (reached : Reachable platform config info)
    (ran : Execution.run (step platform config) info events = some last)
    (within : p < info.tasks.toDeleteTaskList.length) {now : Int} (due : DueBy info p now) :
    (moveOf last (.release now)).Serves (queueOf last) ((queueOf info).released.length + p) := by
  have good := reachable_good reached
  have later : Reachable platform config last := by
    obtain ⟨hosts, before, begun⟩ := reached
    obtain ⟨first, starts, rest⟩ := session_split.mp begun
    exact ⟨hosts, before ++ events, session_split.mpr ⟨first, starts, run_concat rest ran⟩⟩
  have released := released_run_leads checkDeleteCount (queueOf info) (movesOf platform config info events)
  rw [← run_queue good ran] at released
  intro n waits
  have waiting : p < (queueOf info).waiting.length := by
    rw [queueOf, List.length_map]
    exact within
  have early := waited (history_leads good ran) released.length_le waiting waits
  rw [queueOf, ← List.map_take] at early
  obtain ⟨node, among, own⟩ := List.mem_map.mp early
  obtain ⟨other, entered, same⟩ := List.mem_map.mp (List.mem_of_mem_take waits)
  have old : other ∈ info.tasks.toDeleteTaskList := by
    rcases entries_run good ran entered with old | fresh
    · exact old
    · refine absurd (List.mem_append_right _ ?_) fresh
      rw [same, ← own]
      exact List.mem_map_of_mem (List.mem_of_mem_take among)
  have equal : other = node :=
    List.inj_on_of_nodup_map (marks_nodup good) old (List.mem_of_mem_take among) (same.trans own.symm)
  rw [equal] at entered
  have ripe : (last.heap node.ptask).deleteImmediately = true ∨ timeoutForRelease < now - node.timeDeleted :=
    (due node among).imp_left
      (hasty_run good ran (good.entries node (List.mem_of_mem_take among)))
  have ready := parked_releasable later entered ripe
  rw [readyAt, List.any_eq_true]
  exact ⟨node, entered, by simp [← own, ready]⟩

theorem due_along {before : List Event} {middle : MainInfo} (reached : Reachable platform config info)
    (earlier : Execution.run (step platform config) info before = some middle)
    (ran : Execution.run (step platform config) middle events = some last)
    (within : p < info.tasks.toDeleteTaskList.length) (due : ∀ now, .release now ∈ events → DueBy info p now) :
    ServesAlong checkDeleteCount ((queueOf info).released.length + p) (queueOf middle)
      (movesOf platform config middle events) := by
  induction events generalizing before middle with
  | nil => trivial
  | cons event rest ih =>
    obtain ⟨next, taken, later⟩ := (Execution.run_cons _ middle last event rest).mp ran
    have good : Good middle := run_preserves (fun _ event _ good taken => step_good event good taken)
      (reachable_good reached) earlier
    have one : Execution.run (step platform config) middle [event] = some next := by
      rw [Execution.run, taken]
      rfl
    have tail := ih (run_concat earlier one) later fun now member => due now (List.mem_cons_of_mem _ member)
    rw [movesOf, taken]
    refine ⟨?_, by rw [← step_queue good taken]; exact tail⟩
    cases release : moveOf middle event with
    | release ready =>
      have sweeps : isSweep event = true := by
        rw [← moveOf_isRelease middle event, release]
        rfl
      cases event with
      | release now =>
        rw [← release]
        exact due_serves reached earlier within (due now List.mem_cons_self)
      | _ => cases sweeps
    | retire item => trivial
    | rest => trivial

/-- A task whose entry is at position p, from 0, is erased by the time of ⌊p / CHECK_DELETE_COUNT⌋ + 1 sweeps,
when those up to it are due at each of them. -/
theorem erased_within (reached : Reachable platform config info) {node : DeleteNode}
    (entry : info.tasks.toDeleteTaskList[p]? = some node)
    (ran : Execution.run (step platform config) info events = some last)
    (due : ∀ now, .release now ∈ events → DueBy info p now)
    (enough : p / checkDeleteCount + 1 ≤ events.countP isSweep) :
    node.ptask ∈ (queueOf last).released ∧ ∀ key, last.tasks.find key ≠ some node.ptask := by
  have good := reachable_good reached
  have kept : Good last := run_preserves (fun _ event _ good taken => step_good event good taken) good ran
  have within : p < info.tasks.toDeleteTaskList.length := (List.getElem?_eq_some_iff.mp entry).1
  have place : (queueOf info).history[(queueOf info).released.length + p]? = some node.ptask := by
    rw [Queue.history, List.getElem?_append_right (by omega), Nat.add_sub_cancel_left, queueOf, List.getElem?_map,
      entry]
    rfl
  have inside : (queueOf info).released.length + p < (queueOf info).history.length :=
    (List.getElem?_eq_some_iff.mp place).1
  have start : Execution.run (step platform config) info [] = some info := rfl
  have along := due_along reached start ran within due
  have before : min ((queueOf info).released.length + p + 1) (queueOf info).released.length ≤
      (queueOf info).released.length := Nat.min_le_right _ _
  have served := served_run inside along before
  rw [← run_queue good ran, countP_movesOf ran] at served
  have count : checkDeleteCount = 3 := by decide
  rw [count] at enough served
  have erased : (queueOf last).released[(queueOf info).released.length + p]? = some node.ptask := by
    obtain ⟨more, whole⟩ := history_leads good ran
    have there : (queueOf last).history[(queueOf info).released.length + p]? = some node.ptask := by
      rw [← whole, List.getElem?_append_left inside, place]
    rwa [Queue.history, List.getElem?_append_left (by omega)] at there
  have member := List.mem_of_getElem? erased
  refine ⟨member, fun key found => ?_⟩
  obtain ⟨bound, key_same⟩ := kept.keyed key node.ptask found
  have listed : (view last node.ptask).listed = true := by
    rw [listed_iff, key_same]
    exact found
  have positive : 0 < (queueOf last).released.count node.ptask := List.count_pos_iff.mpr member
  have once := (kept.lives node.ptask bound).placed.erasedOnce
  have erasures : (queueOf last).released.count node.ptask = (view last node.ptask).acts.countP isErased :=
    count_erased last.log node.ptask
  rw [if_pos listed] at once
  omega

end

/-- The fourth of five refused tasks has to wait for the second sweep. -/
theorem erased_within_two :
    ∃ info middle last, session ⟨64, 32⟩ fiveTasks (fun _ => none) refusedBackwards = some info ∧
      Execution.run (step ⟨64, 32⟩ fiveTasks) info [.release 2] = some middle ∧ 1 ∉ (queueOf middle).released ∧
      Execution.run (step ⟨64, 32⟩ fiveTasks) info [.release 2, .tick fun _ => some 0, .release 3] = some last ∧
      1 ∈ (queueOf last).released ∧ ∀ key, last.tasks.find key ≠ some 1 := by
  obtain ⟨info, middle, last, ran, first, waits, swept, entry, due⟩ : ∃ info middle last,
      session ⟨64, 32⟩ fiveTasks (fun _ => none) refusedBackwards = some info ∧
      Execution.run (step ⟨64, 32⟩ fiveTasks) info [.release 2] = some middle ∧ 1 ∉ (queueOf middle).released ∧
      Execution.run (step ⟨64, 32⟩ fiveTasks) info [.release 2, .tick fun _ => some 0, .release 3] = some last ∧
      info.tasks.toDeleteTaskList[3]? = some ⟨1, 0⟩ ∧ DueBy info 3 2 ∧ DueBy info 3 3 :=
    ⟨_, _, _, rfl, rfl, by decide, rfl, by decide, by decide, by decide⟩
  have reached : Reachable ⟨64, 32⟩ fiveTasks info := ⟨_, _, ran⟩
  have all_due : ∀ now, Event.release now ∈ [Event.release 2, .tick fun _ => some 0, .release 3] →
      DueBy info 3 now := by
    intro now member
    simp only [List.mem_cons, Event.release.injEq, reduceCtorEq, false_or, List.not_mem_nil, or_false] at member
    rcases member with early | late
    · rw [early]
      exact due.1
    · rw [late]
      exact due.2
  exact ⟨info, middle, last, ran, first, waits, swept, erased_within reached entry swept all_due (by decide)⟩

end EasyStressTest.SweepDelay
