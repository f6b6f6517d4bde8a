import EasyStressTest.Reachability
import EasyStressTest.RetireQueue

/-!
The program refines a queue of retired items: a task retires when it is put on `to_delete_task_list`,
which is the order in which the sweeps erase the tasks.
-/

namespace EasyStressTest.Retirement
open Define HttpTask Options Tasks Libuv Callbacks Loop Execution Lifecycle Simulation Population
open Posting Shutdown Sweep Reachability RetireQueue

def erasedNode : Nat × Act → Option Nat
  | (n, .erased _) => some n
  | _ => none

/-- The erased tasks, in the order of their erasures, and those that wait for it. -/
def queueOf (info : MainInfo) : Queue Nat where
  released := info.log.filterMap erasedNode
  waiting := info.tasks.toDeleteTaskList.map DeleteNode.ptask

/-- What a sweep at a time finds of the task of an entry. -/
def readyAt (info : MainInfo) (t : Int) (n : Nat) : Bool :=
  info.tasks.toDeleteTaskList.any fun node => node.ptask == n && releasable (info.heap n) node.timeDeleted t

def moveOf (info : MainInfo) : Event → Move Nat
  | .release now => .release (readyAt info now)
  | .connected n status _ _ => if status ≠ 0 ∧ uvIsClosing (info.heap n).conn = false then .retire n else .rest
  | .closed n _ => if (info.heap n).conn.state = .closing true then .retire n else .rest
  | _ => .rest

/-- What `time` returns in an event, where that matters. -/
def timeOf : Event → Int
  | .release now => now
  | .connected _ _ now _ => now
  | .closed _ now => now
  | _ => 0

/-! What a step about one task does to the queue. -/

/-- These entries were added at the end, and no erasure was made. -/
structure Noted (marks : List DeleteNode) (info next : MainInfo) : Prop where
  entries : next.tasks.toDeleteTaskList = info.tasks.toDeleteTaskList ++ marks
  erasures : next.log.filterMap erasedNode = info.log.filterMap erasedNode

section
variable {info middle next : MainInfo} {p : Nat} {marks more : List DeleteNode}

theorem Noted.refl : Noted [] info info := ⟨(List.append_nil _).symm, rfl⟩

theorem Noted.trans (first : Noted marks info middle) (second : Noted more middle next) :
    Noted (marks ++ more) info next where
  entries := by rw [second.entries, first.entries, List.append_assoc]
  erasures := second.erasures.trans first.erasures

theorem Noted.setTask (task : TcpTask) : Noted [] info (info.setTask p task) := ⟨(List.append_nil _).symm, rfl⟩

theorem Noted.act {act : Act} (other : erasedNode (p, act) = none) : Noted [] info (info.act p act) where
  entries := (List.append_nil _).symm
  erasures := by
    simp only [MainInfo.act, List.filterMap_append, List.filterMap_cons, other, List.filterMap_nil, List.append_nil]

theorem Noted.assert (assertion : Assertion) (expr : Bool) : Noted [] info (info.assert assertion expr) := by
  unfold MainInfo.assert
  split
  · exact Noted.refl
  · exact ⟨(List.append_nil _).symm, rfl⟩

theorem noted_mark (info : MainInfo) (p : Nat) (now : Int) :
    Noted [⟨p, now⟩] info (info.addTaskToBeDeleted p now) := ⟨rfl, rfl⟩

theorem noted_uvClose (info : MainInfo) (p : Nat) (notify : Bool) : Noted [] info (uvClose info p notify) := by
  unfold uvClose
  dsimp only
  split
  · exact Noted.act rfl
  · exact (Noted.setTask _).trans (Noted.act rfl)

theorem noted_doClose (info : MainInfo) (p : Nat) (releaseIt : Bool) : Noted [] info (doClose info p releaseIt) :=
  ((Noted.setTask _).trans (noted_uvClose _ p true)).trans (Noted.setTask _)

theorem noted_doRead (info : MainInfo) (p : Nat) : Noted [] info (doRead info p).1 :=
  (Noted.setTask _).trans (Noted.assert _ _)

theorem noted_doWrite (info : MainInfo) (p : Nat) (r : Int) : Noted [] info (doWrite info p r).1 :=
  (Noted.setTask _).trans (Noted.assert _ _)

theorem noted_connectedSuccessful {written : Int} (returns : httpOnConnectedSuccessful info p written = some next) :
    Noted [] info next := by
  rw [httpOnConnectedSuccessful, Option.some.injEq] at returns
  rw [← returns]
  have wrote := (noted_doWrite info p written).trans (Noted.assert .writeStarted ((doWrite info p written).2 == 0))
  exact ((wrote.trans (noted_doRead _ p)).trans (Noted.assert _ _)).trans (Noted.setTask _)

theorem noted_onRecv {sizeBits size : Nat} {buf : UvBuf} (returns : httpOnRecv sizeBits info p buf size = some next) :
    Noted [] info next := by
  simp only [httpOnRecv, Option.bind_eq_bind, Option.bind_eq_some_iff] at returns
  obtain ⟨reply, _, result⟩ := returns
  split at result
  · rw [← Option.some.inj result]
    exact (Noted.setTask _).trans (noted_doClose _ p true)
  · rw [← Option.some.inj result]
    exact Noted.setTask _

end

section
variable {platform : Platform} {config : MainConfig} {info middle next : MainInfo} {p : Nat} {event : Event}

/-- A step adds an entry exactly for the task that its move retires. -/
def Retires (info : MainInfo) (event : Event) (next : MainInfo) : Prop :=
  moveOf info event = .rest ∧ Noted [] info next ∨
    ∃ p, moveOf info event = .retire p ∧ Noted [⟨p, timeOf event⟩] info next

theorem retires_none (noted : Noted [] info next) (rests : moveOf info event = .rest) : Retires info event next :=
  Or.inl ⟨rests, noted⟩

theorem noted_completed (info : MainInfo) (p : Nat) (task : TcpTask) {act : Act} (other : erasedNode (p, act) = none) :
    Noted [] info ((info.setTask p task).act p act) := (Noted.setTask task).trans (Noted.act other)

theorem connected_retires {status now written : Int} (routed : Routed p (info.heap p))
    (taken : exec platform config info (.connected p status now written) = some next) :
    Retires info (.connected p status now written) next := by
  have pointer := completed_pointer .connect routed
  simp only [exec, onConnect, pointer, Option.bind_eq_bind, Option.bind_some] at taken
  by_cases failed : status ≠ 0
  · rw [if_pos failed] at taken
    obtain ⟨called, quiet, heap, result⟩ : ∃ called, Noted [] info called ∧
        uvIsClosing (called.heap p).conn = uvIsClosing (info.heap p).conn ∧
        next = if uvIsClosing (called.heap p).conn then called
          else (uvClose called p false).addTaskToBeDeleted p now := by
      cases table : builtin config with
      | true =>
        simp only [initCallbacks_http _ table, httpCallbacks, httpOnConnectedFailed,
          Option.bind_some, ← apply_ite some, Option.some.injEq] at taken
        exact ⟨_, noted_completed info p _ rfl, by rw [heap_act, heap_setTask_self]; rfl, taken.symm⟩
      | false =>
        simp only [initCallbacks_script _ table, noCallbacks, ← apply_ite some,
          Option.some.injEq] at taken
        exact ⟨_, Noted.setTask _, by rw [heap_setTask_self]; rfl, taken.symm⟩
    rw [heap] at result
    by_cases closing : uvIsClosing (info.heap p).conn = true
    · rw [if_pos closing] at result
      subst result
      exact retires_none quiet (if_neg fun both => by simp [closing] at both)
    · rw [if_neg closing] at result
      subst result
      rw [Bool.not_eq_true] at closing
      have marked := (quiet.trans (noted_uvClose called p false)).trans (noted_mark _ p now)
      exact Or.inr ⟨p, if_pos ⟨failed, closing⟩, marked⟩
  · rw [if_neg failed] at taken
    refine retires_none ?_ (if_neg fun both => failed both.1)
    cases table : builtin config with
    | true =>
      simp only [initCallbacks_http _ table, httpCallbacks] at taken
      exact (noted_completed info p _ rfl).trans (noted_connectedSuccessful taken)
    | false =>
      simp only [initCallbacks_script _ table, noCallbacks, Option.some.injEq] at taken
      subst next
      exact (Noted.setTask _).trans (noted_doRead _ p)

theorem read_noted {nread : Int} {buf : UvBuf} (routed : Routed p (info.heap p))
    (taken : readCb (initCallbacks platform.sizeBits config) info p nread buf = some next) : Noted [] info next := by
  simp only [readCb, routed.connData, nodeOf, Option.bind_eq_bind, Option.bind_some] at taken
  split at taken
  · rw [← Option.some.inj taken]
    exact Noted.refl
  · split at taken
    · rw [← Option.some.inj taken]
      exact (Noted.assert _ _).trans (noted_uvClose _ p true)
    · cases table : builtin config with
      | true =>
        simp only [initCallbacks_http _ table, httpCallbacks] at taken
        exact (Noted.act rfl).trans (noted_onRecv taken)
      | false =>
        simp only [initCallbacks_script _ table, noCallbacks, Option.some.injEq] at taken
        rw [← taken]
        exact Noted.refl

theorem written_noted {status : Int} (routed : Routed p (info.heap p))
    (taken : exec platform config info (.written p status) = some next) : Noted [] info next := by
  have pointer := completed_pointer .write routed
  simp only [exec, writeCb, pointer, Option.bind_eq_bind, Option.bind_some] at taken
  have completed : Noted [] info (info.setTask p (complete (info.heap p) .write)) := Noted.setTask _
  have asserted := completed.trans (Noted.assert .writeStatus (status == uvEconnreset || status == uvEof))
  cases table : builtin config with
  | true =>
    simp only [initCallbacks_http _ table, httpCallbacks, httpOnSendError, httpOnSendOk, Option.bind_some] at taken
    split at taken
    · rw [← Option.some.inj taken]
      exact (asserted.trans (Noted.act rfl)).trans (noted_uvClose _ p true)
    · rw [← Option.some.inj taken]
      exact noted_completed info p _ rfl
  | false =>
    simp only [initCallbacks_script _ table, noCallbacks] at taken
    split at taken
    · rw [← Option.some.inj taken]
      exact asserted.trans (noted_uvClose _ p true)
    · rw [← Option.some.inj taken]
      exact Noted.setTask _

theorem closed_retires {now : Int} (routed : Routed p (info.heap p))
    (taken : exec platform config info (.closed p now) = some next) : Retires info (.closed p now) next := by
  have pointer := finished_pointer routed
  by_cases notify : (info.heap p).conn.state = .closing true
  · have called : closeCb (initCallbacks platform.sizeBits config)
        (info.setTask p (finishClose (info.heap p))) p now = some next := by
      simp only [exec, notify] at taken
      exact taken
    have marked : Noted [⟨p, now⟩] info ((info.setTask p (finishClose (info.heap p))).addTaskToBeDeleted p now) :=
      (Noted.setTask _).trans (noted_mark _ p now)
    refine Or.inr ⟨p, if_pos notify, ?_⟩
    simp only [closeCb, pointer, Option.bind_eq_bind, Option.bind_some] at called
    cases table : builtin config with
    | true =>
      simp only [initCallbacks_http _ table, httpCallbacks, httpOnClose, Option.bind_eq_bind,
        Option.bind_eq_some_iff, Option.some.injEq] at called
      obtain ⟨_, _, result⟩ := called
      subst next
      exact marked.trans (Noted.act rfl)
    | false =>
      simp only [initCallbacks_script _ table, noCallbacks, Option.some.injEq] at called
      subst next
      exact marked
  · refine retires_none ?_ (if_neg notify)
    simp only [exec] at taken
    rw [← Option.some.inj taken]
    exact Noted.setTask _

theorem target_retires (about : target event = some p) (routed : Routed p (info.heap p))
    (taken : exec platform config info event = some next) : Retires info event next := by
  cases event with
  | tick hosts => cases about
  | release now => cases about
  | walk => cases about
  | workInit n =>
    cases about
    simp only [exec, workUvCbInit, routed.workData, nodeOf, Option.bind_eq_bind, Option.bind_some,
      Option.map_some, Option.some.injEq] at taken
    subst next
    exact retires_none ((Noted.setTask _).trans (Noted.setTask _)) rfl
  | workConnect n r =>
    cases about
    simp only [exec, workUvCbConnect, routed.workData, nodeOf, Option.bind_eq_bind, Option.bind_some,
      Option.map_some, Option.some.injEq] at taken
    subst next
    exact retires_none (((Noted.setTask _).trans (Noted.setTask _)).trans (Noted.setTask _)) rfl
  | workReturn n =>
    cases taken
    exact retires_none (Noted.setTask _) rfl
  | afterWork n =>
    cases taken
    exact retires_none (Noted.setTask _) rfl
  | connected n status now written =>
    cases about
    exact connected_retires routed taken
  | readNone n =>
    cases about
    exact retires_none (read_noted routed taken) rfl
  | readError n nread =>
    cases about
    exact retires_none (read_noted routed taken) rfl
  | readData n received =>
    cases about
    exact retires_none (read_noted routed taken) rfl
  | written n status =>
    cases about
    exact retires_none (written_noted routed taken) rfl
  | readRetired n =>
    cases taken
    exact retires_none (Noted.setTask _) rfl
  | closed n now =>
    cases about
    exact closed_retires routed taken

/-! The refinement. -/

theorem queueOf_noted {marks : List DeleteNode} (noted : Noted marks info next) : queueOf next =
    { queueOf info with waiting := (queueOf info).waiting ++ marks.map DeleteNode.ptask } := by
  simp only [queueOf, noted.entries, noted.erasures, List.map_append]

theorem walkFirst_noted (info : MainInfo) (count : Nat) : Noted [] info (walkFirst info count) := by
  induction count with
  | zero => exact Noted.refl
  | succ count ih =>
    have turn : Noted [] (walkFirst info count) (walkOne (walkFirst info count) count) := by
      by_cases opened : ((walkFirst info count).heap count).conn.state = .opened
      · rw [walkOne_open opened]
        exact noted_uvClose _ count false
      · rw [walkOne_other opened]
        exact Noted.refl
    rw [walkFirst_succ]
    exact ih.trans turn

theorem insertNewborn_noted (http : Bool) (info : MainInfo) (addr : SockaddrIn) :
    Noted [] info (insertNewborn http info addr) where
  entries := (List.append_nil _).symm
  erasures := by
    have silent : ((newborn http info.nodes (info.tasks.curId + 1) addr).acts.map
        fun act => (info.nodes, act)).filterMap erasedNode = [] := by
      cases http <;> rfl
    simp only [insertNewborn, List.filterMap_append, silent, List.append_nil]

theorem tcpTaskPost_noted {host : Option UInt32} {r : Int}
    (posts : tcpTaskPost (initCallbacks platform.sizeBits config) info host = some (next, r)) :
    Noted [] info next := by
  by_cases succeeded : 0 ≤ onInitReturned (initCallbacks platform.sizeBits config) host
  · obtain ⟨addr, result⟩ := tcpTaskPost_succeeds info succeeded
    rw [posts] at result
    by_cases taken : info.tasks.curId + 1 ∈ info.tasks.taskList
    · rw [if_pos taken] at result
      cases result
    · rw [if_neg taken, Option.some.injEq, Prod.mk.injEq] at result
      rw [result.1]
      exact insertNewborn_noted (builtin config) info addr
  · have result := tcpTaskPost_negative info (Int.not_le.mp succeeded)
    rw [posts, Option.some.injEq, Prod.mk.injEq] at result
    rw [result.1]
    exact Noted.refl

theorem postFirst_noted {hosts : Nat → Option UInt32} {count : Nat}
    (posts : postFirst (initCallbacks platform.sizeBits config) hosts info count = some next) :
    Noted [] info next := by
  induction count generalizing next with
  | zero =>
    cases posts
    exact Noted.refl
  | succ count ih =>
    rw [postFirst_succ] at posts
    obtain ⟨middle, before, last⟩ := Option.bind_eq_some_iff.mp posts
    obtain ⟨⟨result, r⟩, attempt, same⟩ := Option.map_eq_some_iff.mp last
    rw [← same]
    exact ((ih before).trans (tcpTaskPost_noted attempt)).trans (Noted.assert .timerPosted (r ≥ 0))

/-- The entries that a sweep takes are those of the ready tasks. -/
theorem leading_front (good : Good info) (t : Int) : (leading info t checkDeleteCount).map DeleteNode.ptask =
    front checkDeleteCount (readyAt info t) (queueOf info).waiting := by
  have agrees : ∀ node ∈ info.tasks.toDeleteTaskList.take checkDeleteCount,
      releasable (info.heap node.ptask) node.timeDeleted t = readyAt info t node.ptask := by
    intro node member
    have inside := List.mem_of_mem_take member
    rw [Bool.eq_iff_iff, readyAt, List.any_eq_true]
    apply Iff.intro
    · exact fun ready => ⟨node, inside, by simp [ready]⟩
    · rintro ⟨other, among, found⟩
      simp only [Bool.and_eq_true, beq_iff_eq] at found
      have same : other = node := List.inj_on_of_nodup_map (marks_nodup good) among inside found.1
      rw [← same] at found ⊢
      exact found.2
  rw [leading, front, queueOf, ← List.map_take, List.takeWhile_map]
  exact congrArg _ (takeWhile_congr agrees)

/-- The program refines the queue: closed tasks retire, and sweeps release. -/
theorem step_queue (good : Good info) (taken : step platform config info event = some next) :
    queueOf next = RetireQueue.step checkDeleteCount (queueOf info) (moveOf info event) := by
  obtain ⟨allowed, result⟩ := step_eq_some.mp taken
  have rests : ∀ {state}, Noted [] info state → queueOf state = queueOf info :=
    fun noted => (queueOf_noted noted).trans (congrArg _ (List.append_nil _))
  cases about : target event with
  | some p =>
    rcases target_retires about (good.lives p (target_bound about allowed)).routed result with
      ⟨move, noted⟩ | ⟨q, move, noted⟩
    · rw [move]
      exact rests noted
    · rw [move]
      exact queueOf_noted noted
  | none =>
    cases event with
    | tick hosts =>
      rw [exec, timerCb_eq] at result
      split at result
      · exact rests (postFirst_noted result)
      · rw [← Option.some.inj result]
        rfl
    | release now =>
      obtain ⟨swept, returns, cleared⟩ := sweep_cleared (good_pending good) now
      have same : swept = next := Option.some.inj (returns.symm.trans result)
      rw [same] at cleared
      have front := leading_front good now
      have lengths := congrArg List.length front
      rw [List.length_map] at lengths
      have erased : ∀ taken : List DeleteNode,
          (taken.map fun node => (node.ptask, Act.erased (keyOf info node))).filterMap erasedNode =
            taken.map DeleteNode.ptask := by
        intro taken
        rw [List.filterMap_map]
        exact congrFun (List.filterMap_eq_map' (f := DeleteNode.ptask)) taken
      simp only [moveOf, RetireQueue.step, ← front, List.length_map]
      simp only [queueOf, cleared.log, List.filterMap_append, erased, cleared.entries, List.map_append]
      rw [List.drop_append_of_le_length (by simp), List.drop_of_length_le (by simp), List.nil_append]
    | walk =>
      cases result
      have walked := walkFirst_noted info info.nodes
      exact rests ⟨walked.entries, walked.erasures⟩
    | _ => cases about

/-- The moves of a run. -/
def movesOf (platform : Platform) (config : MainConfig) : MainInfo → List Event → List (Move Nat)
  | _, [] => []
  | info, event :: rest =>
      moveOf info event ::
        match step platform config info event with
        | some next => movesOf platform config next rest
        | none => []

def isSweep : Event → Bool
  | .release _ => true
  | _ => false

theorem run_queue {events : List Event} (good : Good info)
    (ran : Execution.run (step platform config) info events = some next) :
    queueOf next = RetireQueue.run checkDeleteCount (queueOf info) (movesOf platform config info events) := by
  induction events generalizing info with
  | nil =>
    cases ran
    rfl
  | cons event rest ih =>
    obtain ⟨middle, taken, later⟩ := (Execution.run_cons _ info next event rest).mp ran
    rw [movesOf, taken, RetireQueue.run_cons, ← step_queue good taken]
    exact ih (step_good event good taken) later

theorem moveOf_isRelease (info : MainInfo) (event : Event) : (moveOf info event).isRelease = isSweep event := by
  cases event with
  | connected n status now written =>
    simp only [moveOf]
    split <;> rfl
  | closed n now =>
    simp only [moveOf]
    split <;> rfl
  | _ => rfl

theorem countP_movesOf {events : List Event} (ran : Execution.run (step platform config) info events = some next) :
    (movesOf platform config info events).countP Move.isRelease = events.countP isSweep := by
  induction events generalizing info with
  | nil => rfl
  | cons event rest ih =>
    obtain ⟨middle, taken, later⟩ := (Execution.run_cons _ info next event rest).mp ran
    rw [movesOf, taken, List.countP_cons, List.countP_cons, moveOf_isRelease, ih later]

end

end EasyStressTest.Retirement
