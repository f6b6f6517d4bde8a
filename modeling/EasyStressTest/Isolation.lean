import EasyStressTest.Reachability

/-!
One task apart from all others: what a run does to its memory, and what the program does with it, is
what its own events do to it one by one. A sweep takes the task from `task_list`, and does not touch it.
-/

namespace EasyStressTest.Isolation
open Define HttpTask Options Tasks Libuv Callbacks Loop Execution Lifecycle Simulation Population
open Reachability

/-- The memory of a task, and what was done with it but for its erasure. -/
structure Own where
  task : TcpTask
  acts : List Act
  deriving DecidableEq

def own (view : View) : Own := ⟨view.task, view.acts.filter fun act => !isErased act⟩

def Own.doing (own : Own) (task : TcpTask) (acts : List Act) : Own := ⟨task, own.acts ++ acts⟩

/-- The events of one task: those about it, and the walk. -/
def concerns (n : Nat) : Event → Bool
  | .walk => true
  | event => target event == some n

section
variable (sizeBits : Nat) (builtin : Bool)

def replayConnected (own : Own) (status written : Int) : Own :=
  let task := complete own.task .connect
  if status = 0 then
    if builtin then
      own.doing (withReply (startRead (submit task .write written)) .fresh) [.callback .onConnectedSuccessful]
    else own.doing (startRead task) []
  else if uvIsClosing own.task.conn then own.doing task (call builtin .onConnectedFailed)
  else own.doing (closeOpen task false) (call builtin .onConnectedFailed ++ [.close false])

def replayData (own : Own) (received : List UInt8) : Own :=
  match builtin, own.task.reversed with
  | true, some reply =>
      let (next, finished) := reply.onRecv sizeBits received received.length
      if finished then
        own.doing { closeOpen (withReply own.task next) true with deleteImmediately := true }
          [.callback .onRecv, .close false]
      else own.doing (withReply own.task next) [.callback .onRecv]
  | _, _ => own

def replayWritten (own : Own) (status : Int) : Own :=
  let task := complete own.task .write
  if status = 0 then own.doing task (call builtin .onSendOk)
  else if uvIsClosing own.task.conn then own.doing task (call builtin .onSendError ++ [.close true])
  else own.doing (closeOpen task true) (call builtin .onSendError ++ [.close false])

def replayClosed (own : Own) : Own :=
  own.doing (finishClose own.task) (if own.task.conn.state = .closing true then call builtin .onClose else [])

/-- What an event of its own does to a task. -/
def replay (own : Own) : Event → Own
  | .workInit _ => own.doing (withStage (withConn own.task (uvTcpInit own.task.conn)) .initialised) []
  | .workConnect _ r =>
      own.doing
        { submit own.task .connect r with workReq := { own.task.workReq with r := r, stage := .connected } } []
  | .workReturn _ => own.doing (withStage own.task .returned) []
  | .afterWork _ => own.doing (withStage own.task .delivered) []
  | .connected _ status _ written => replayConnected builtin own status written
  | .readNone _ => own
  | .readError _ _ => own.doing (closeOpen own.task true) [.close false]
  | .readData _ received => replayData sizeBits builtin own received
  | .written _ status => replayWritten builtin own status
  | .readRetired _ => own.doing (withConn own.task (retireRead own.task.conn)) []
  | .closed _ _ => replayClosed builtin own
  | .walk => if own.task.conn.state = .opened then own.doing (closeOpen own.task false) [.close false] else own
  | .tick _ => own
  | .release _ => own

end

section
variable {sizeBits : Nat} {http : Bool} {n : Nat} {event : Event} {before after view : View}

@[simp] theorem task_own : (own view).task = view.task := rfl

theorem own_acts (task : TcpTask) (listed : Bool) (marked : Nat) (walked : Bool) {acts : List Act}
    (kept : ∀ act ∈ acts, isErased act = false) :
    own ⟨task, listed, marked, view.acts ++ acts, walked⟩ = (own view).doing task acts := by
  have all : acts.filter (fun act => !isErased act) = acts := by
    apply List.filter_eq_self.mpr
    intro act member
    rw [kept act member]
    rfl
  rw [own, List.filter_append, all]
  rfl

theorem own_task (task : TcpTask) (listed : Bool) (marked : Nat) (walked : Bool) :
    own ⟨task, listed, marked, view.acts, walked⟩ = (own view).doing task [] := by
  rw [own, Own.doing, List.append_nil]
  rfl

theorem call_kept (builtin : Bool) (name : Callback) : ∀ act ∈ call builtin name, isErased act = false := by
  intro act member
  cases builtin with
  | true =>
    rw [List.mem_singleton.mp member]
    rfl
  | false => cases member

theorem call_close_kept (builtin : Bool) (name : Callback) (again : Bool) :
    ∀ act ∈ call builtin name ++ [.close again], isErased act = false := by
  intro act member
  rcases List.mem_append.mp member with made | closed
  · exact call_kept builtin name act made
  · rw [List.mem_singleton.mp closed]
    rfl

theorem replay_life (concerned : concerns n event = true)
    (taken : LifeStep sizeBits http n event before after) :
    own after = replay sizeBits http (own before) event := by
  cases taken with
  | @other event view apart staying =>
    have about : target event = some n := by
      cases event with
      | walk => exact absurd rfl staying
      | _ => exact beq_iff_eq.mp concerned
    exact absurd about apart
  | erase => cases concerned
  | walkOpen opened =>
    rw [replay, task_own, if_pos opened]
    exact own_acts _ _ _ _ (by simp [isErased])
  | walkOther notOpened => exact (if_neg notOpened).symm
  | workInit => exact own_task _ _ _ _
  | workConnect => exact own_task _ _ _ _
  | workReturn => exact own_task _ _ _ _
  | afterWork => exact own_task _ _ _ _
  | connectOk submitted unclosed code table =>
    subst table
    exact own_acts _ _ _ _ (by simp [isErased])
  | connectBare submitted unclosed script =>
    subst script
    exact own_task _ _ _ _
  | connectFail failed submitted unclosed =>
    rw [replay, replayConnected, if_neg failed, task_own, if_neg (by simp [unclosed]), List.append_assoc]
    exact own_acts _ _ _ _ (call_close_kept _ _ _)
  | connectCancelled failed submitted closing =>
    rw [replay, replayConnected, if_neg failed, task_own, if_pos closing]
    exact own_acts _ _ _ _ (call_kept _ _)
  | readNone => rfl
  | readError => exact own_acts _ _ _ _ (by simp [isErased])
  | readMore reading table constructed onRecv =>
    subst table
    unfold replay replayData
    rw [task_own, constructed]
    simp only [onRecv]
    exact own_acts _ _ _ _ (by simp [isErased])
  | readEnd reading table constructed onRecv =>
    subst table
    unfold replay replayData
    rw [task_own, constructed]
    simp only [onRecv]
    exact own_acts _ _ _ _ (by simp [isErased])
  | readBare reading script =>
    subst script
    rfl
  | writeOk => exact own_acts _ _ _ _ (call_kept _ _)
  | writeError failed submitted unclosed =>
    rw [replay, replayWritten, if_neg failed, task_own, if_neg (by simp [unclosed]), List.append_assoc]
    exact own_acts _ _ _ _ (call_close_kept _ _ _)
  | writeCancelled failed submitted closing =>
    rw [replay, replayWritten, if_neg failed, task_own, if_pos closing, List.append_assoc]
    exact own_acts _ _ _ _ (call_close_kept _ _ _)
  | readRetired => exact own_task _ _ _ _
  | closedQuiet closing =>
    rw [replay, replayClosed, task_own, if_neg (by simp [closing])]
    exact own_task _ _ _ _
  | closedNotify closing =>
    rw [replay, replayClosed, task_own, if_pos closing]
    exact own_acts _ _ _ _ (call_kept _ _)

/-- Every other event leaves the task as it is, a sweep included. -/
theorem own_apart (unconcerned : concerns n event = false)
    (taken : LifeStep sizeBits http n event before after) : own after = own before := by
  cases taken with
  | other => rfl
  | erase =>
    rw [own, List.filter_append]
    simp [own, isErased]
  | walkOpen => cases unconcerned
  | walkOther => cases unconcerned
  | _ => simp [concerns, target] at unconcerned

end

section
variable {platform : Platform} {config : MainConfig} {info last : MainInfo} {events : List Event} {n : Nat}

theorem own_run (good : Good info) (bound : n < info.nodes)
    (ran : run (step platform config) info events = some last) :
    own (view last n) =
      (events.filter (concerns n)).foldl (replay platform.sizeBits (builtin config)) (own (view info n)) := by
  induction events generalizing info with
  | nil =>
    cases ran
    rfl
  | cons event rest ih =>
    obtain ⟨next, taken, later⟩ := (run_cons _ info last event rest).mp ran
    have advance := step_advance good taken
    have life := advance.lived n bound
    rw [ih advance.good (Nat.lt_of_lt_of_le bound advance.grown) later]
    cases concerned : concerns n event with
    | true => rw [List.filter_cons_of_pos concerned, List.foldl_cons, replay_life concerned life]
    | false => rw [List.filter_cons_of_neg (by simp [concerned]), own_apart concerned life]

/-- What a run does to a task is what its own events do to it, whatever happens to the other tasks
in between. -/
theorem own_replayed (reached : Reachable platform config info) (bound : n < info.nodes)
    (ran : run (step platform config) info events = some last) :
    own (view last n) =
      (events.filter (concerns n)).foldl (replay platform.sizeBits (builtin config)) (own (view info n)) :=
  own_run (reachable_good reached) bound ran

end

/-- A second task is posted and connects between the events of the first. -/
theorem own_replayed_two :
    ∃ info last, session ⟨64, 32⟩ mainConfig (fun _ => none) [.tick fun _ => some 0] = some info ∧
      run (step ⟨64, 32⟩ mainConfig) info
        [.workInit 0, .tick fun _ => some 0, .workInit 1, .workConnect 1 0, .workConnect 0 0, .release 9] = some last ∧
      own (view last 0) =
        [Event.workInit 0, .workConnect 0 0].foldl (replay 64 true) (own (view info 0)) := by
  obtain ⟨info, last, ran, bound, further⟩ : ∃ info last,
      session ⟨64, 32⟩ mainConfig (fun _ => none) [.tick fun _ => some 0] = some info ∧ 0 < info.nodes ∧
      run (step ⟨64, 32⟩ mainConfig) info
        [.workInit 0, .tick fun _ => some 0, .workInit 1, .workConnect 1 0, .workConnect 0 0, .release 9] =
          some last := ⟨_, _, rfl, by decide, rfl⟩
  exact ⟨info, last, ran, further, own_replayed ⟨_, _, ran⟩ bound further⟩

end EasyStressTest.Isolation
