import EasyStressTest.EndWindow

/-!
The reply of a task over a whole session: the bytes that libuv delivered to it, in order and none of
another task, and a close by `do_close` exactly when the end detector fires on them.
-/

namespace EasyStressTest.Received
open Define HttpTask Options Tasks Libuv Callbacks Loop Execution Lifecycle Simulation Population
open Reachability EndDetector EndWindow

/-- What an event delivers to the task. -/
def delivered (n : Nat) : Event → List UInt8
  | .readData m received => if m = n then received else []
  | _ => []

def allDelivered (n : Nat) (events : List Event) : List UInt8 := events.flatMap (delivered n)

/-- The end detector, on the bytes received so far. -/
def fires (sizeBits : Nat) (bytes : List UInt8) : Bool := endFound bytes (searchOffset sizeBits bytes.length)

/-- The task has the bytes that were delivered to it. -/
structure Heard (sizeBits : Nat) (task : TcpTask) (bytes : List UInt8) : Prop where
  whole : ∀ reply, task.reversed = some reply → reply = ⟨bytes, bytes.length⟩
  silent : task.reversed = none → bytes = []
  unheard : task.workReq.stage = .queued ∨ task.workReq.stage = .initialised ∨
    ReqKind.connect ∈ task.connectReq.submitted → task.reversed = none
  detected : task.deleteImmediately = fires sizeBits bytes
  closing : task.deleteImmediately = true → uvIsClosing task.conn = true

section
variable {sizeBits : Nat} {n : Nat} {event : Event} {before after : View} {bytes : List UInt8}

theorem fires_nil (sizeBits : Nat) : fires sizeBits [] = false := by
  rw [← Bool.not_eq_true]
  intro found
  obtain ⟨pos, blank, _, ends, _⟩ := hasEnd_of_endFound found
  obtain ⟨rest, joined⟩ := ends
  rw [List.drop_nil] at joined
  exact blankLine_ne_nil (List.append_eq_nil_iff.mp joined).1

theorem Heard.fresh (id : UInt64) (addr : SockaddrIn) : Heard sizeBits (posted n id addr) [] where
  whole := by simp [posted, TcpTask.zero]
  silent := fun _ => rfl
  unheard := fun _ => rfl
  detected := (fires_nil sizeBits).symm
  closing := by simp [posted, TcpTask.zero]

/-- What leaves the reply and the state of the handle as they are, and submits no connection. -/
theorem Heard.keeps {task next : TcpTask} (heard : Heard sizeBits task bytes)
    (reply : next.reversed = task.reversed) (flag : next.deleteImmediately = task.deleteImmediately)
    (closes : uvIsClosing task.conn = true → uvIsClosing next.conn = true)
    (early : next.workReq.stage = .queued ∨ next.workReq.stage = .initialised ∨
        ReqKind.connect ∈ next.connectReq.submitted →
      task.workReq.stage = .queued ∨ task.workReq.stage = .initialised ∨
        ReqKind.connect ∈ task.connectReq.submitted) : Heard sizeBits next bytes where
  whole := by
    rw [reply]
    exact heard.whole
  silent := by
    rw [reply]
    exact heard.silent
  unheard := by
    rw [reply]
    exact fun still => heard.unheard (early still)
  detected := by
    rw [flag]
    exact heard.detected
  closing := by
    rw [flag]
    exact fun set => closes (heard.closing set)

theorem Heard.closes {task : TcpTask} (heard : Heard sizeBits task bytes) (notify : Bool) :
    Heard sizeBits (closeOpen task notify) bytes := heard.keeps rfl rfl (fun _ => rfl) id

theorem Heard.completes {task : TcpTask} (heard : Heard sizeBits task bytes) (kind : ReqKind) :
    Heard sizeBits (complete task kind) bytes := by
  refine heard.keeps rfl rfl id fun early => ?_
  rcases early with queued | initialised | connect
  · exact Or.inl queued
  · exact Or.inr (Or.inl initialised)
  · exact Or.inr (Or.inr (List.mem_of_mem_erase connect))

theorem delivered_nil (silent : ∀ m received, event ≠ .readData m received) : delivered n event = [] := by
  cases event with
  | readData m received => exact absurd rfl (silent m received)
  | _ => rfl

theorem delivered_apart (apart : target event ≠ some n) : delivered n event = [] := by
  cases event with
  | readData m received => exact if_neg fun same => apart (congrArg some same)
  | _ => rfl

/-- The reply starts empty, once for each task. -/
theorem Heard.connects {written : Int} (heard : Heard sizeBits before.task bytes) (control : Control before.task)
    (submitted : ReqKind.connect ∈ before.task.connectReq.submitted)
    (unclosed : uvIsClosing before.task.conn = false) :
    Heard sizeBits (withReply (startRead (submit (complete before.task .connect) .write written)) .fresh) bytes := by
  have nothing : bytes = [] := heard.silent (heard.unheard (Or.inr (Or.inr submitted)))
  have unset : before.task.deleteImmediately = false := by
    rw [← Bool.not_eq_true]
    intro set
    rw [heard.closing set] at unclosed
    cases unclosed
  have past := control.past submitted
  have idle := control.completed submitted
  refine ⟨?_, ?_, ?_, ?_, ?_⟩
  · intro reply fresh
    rw [nothing]
    exact (Option.some.inj fresh).symm
  · intro absent
    cases absent
  · intro early
    exfalso
    rcases early with queued | initialised | connect
    · exact past.1 (by simpa using queued)
    · exact past.2 (by simpa using initialised)
    · rcases submit_idle _ .write written idle with none | write
      · change ReqKind.connect ∈ (submit (complete before.task .connect) .write written).connectReq.submitted at connect
        rw [none] at connect
        cases connect
      · change ReqKind.connect ∈ (submit (complete before.task .connect) .write written).connectReq.submitted at connect
        rw [write] at connect
        simp at connect
  · simpa [unset] using heard.detected
  · intro set
    simp [unset] at set

/-- What `http_on_recv` makes of a chunk. -/
theorem Heard.onRecv {received : List UInt8} {reply next : HttpData} {finished : Bool}
    (heard : Heard sizeBits before.task bytes) (constructed : before.task.reversed = some reply)
    (onRecv : reply.onRecv sizeBits received received.length = (next, finished)) :
    next = ⟨bytes ++ received, (bytes ++ received).length⟩ ∧ fires sizeBits (bytes ++ received) = finished := by
  rw [heard.whole reply constructed, onRecv_whole, Prod.mk.injEq] at onRecv
  exact ⟨onRecv.1.symm, onRecv.2⟩

theorem Heard.constructed {task : TcpTask} {reply : HttpData} (heard : Heard sizeBits task bytes)
    (constructed : task.reversed = some reply)
    (early : task.workReq.stage = .queued ∨ task.workReq.stage = .initialised ∨
      ReqKind.connect ∈ task.connectReq.submitted) : False := by
  rw [heard.unheard early] at constructed
  cases constructed

/-- A chunk that does not complete the page. -/
theorem Heard.more {received : List UInt8} {reply next : HttpData} (heard : Heard sizeBits before.task bytes)
    (reading : isReading before.task.conn = true) (constructed : before.task.reversed = some reply)
    (onRecv : reply.onRecv sizeBits received received.length = (next, false)) :
    Heard sizeBits (withReply before.task next) (bytes ++ received) := by
  obtain ⟨same, unfinished⟩ := heard.onRecv constructed onRecv
  have opened := ((isReading_iff _).mp reading).1
  have unset : before.task.deleteImmediately = false := by
    rw [← Bool.not_eq_true]
    intro set
    have closing := heard.closing set
    simp [uvIsClosing, opened] at closing
  refine ⟨?_, by simp, fun early => (heard.constructed constructed early).elim, ?_, ?_⟩
  · intro other also
    rw [← same]
    exact (Option.some.inj also).symm
  · rw [unfinished]
    exact unset
  · intro set
    rw [show (withReply before.task next).deleteImmediately = false from unset] at set
    cases set

/-- The chunk with which the page ends. -/
theorem Heard.ends {received : List UInt8} {reply next : HttpData} (heard : Heard sizeBits before.task bytes)
    (constructed : before.task.reversed = some reply)
    (onRecv : reply.onRecv sizeBits received received.length = (next, true)) :
    Heard sizeBits { closeOpen (withReply before.task next) true with deleteImmediately := true }
      (bytes ++ received) := by
  obtain ⟨same, finished⟩ := heard.onRecv constructed onRecv
  refine ⟨?_, by simp, fun early => (heard.constructed constructed early).elim, finished.symm, fun _ => rfl⟩
  intro other also
  rw [← same]
  exact (Option.some.inj also).symm

/-- Every other event keeps the reply. -/
theorem Heard.other (heard : Heard sizeBits before.task bytes) (control : Control before.task)
    (silent : ∀ m received, event ≠ .readData m received)
    (taken : LifeStep sizeBits true n event before after) : Heard sizeBits after.task bytes := by
  cases taken with
  | other => exact heard
  | erase => exact heard
  | walkOpen => exact heard.closes false
  | walkOther => exact heard
  | workInit queued =>
    have absent := control.absent.mpr queued
    exact heard.keeps rfl rfl (fun closing => by simp [uvIsClosing, absent] at closing) fun _ => Or.inl queued
  | workConnect initialised =>
    exact heard.keeps (by simp) (by simp) (fun closing => by simpa [uvIsClosing] using closing)
      fun _ => Or.inr (Or.inl initialised)
  | workReturn => exact heard.keeps rfl rfl id (by simp_all)
  | afterWork => exact heard.keeps rfl rfl id (by simp_all)
  | connectOk submitted unclosed => exact heard.connects control submitted unclosed
  | connectBare submitted unclosed script => cases script
  | connectFail => exact (heard.completes .connect).closes false
  | connectCancelled => exact heard.completes .connect
  | readNone => exact heard
  | readError => exact heard.closes true
  | readMore => exact absurd rfl (silent _ _)
  | readEnd => exact absurd rfl (silent _ _)
  | readBare => exact absurd rfl (silent _ _)
  | writeOk => exact heard.completes .write
  | writeError => exact (heard.completes .write).closes true
  | writeCancelled => exact heard.completes .write
  | readRetired => exact heard.keeps rfl rfl id id
  | closedQuiet => exact heard.keeps rfl rfl (fun _ => rfl) id
  | closedNotify => exact heard.keeps rfl rfl (fun _ => rfl) id

theorem Heard.step (heard : Heard sizeBits before.task bytes) (control : Control before.task)
    (taken : LifeStep sizeBits true n event before after) :
    Heard sizeBits after.task (bytes ++ delivered n event) := by
  cases event with
  | readData m received =>
    cases taken with
    | other apart =>
      rw [delivered_apart apart, List.append_nil]
      exact heard
    | readMore reading _ constructed onRecv =>
      rw [delivered, if_pos rfl]
      exact heard.more reading constructed onRecv
    | readEnd reading _ constructed onRecv =>
      rw [delivered, if_pos rfl]
      exact heard.ends constructed onRecv
    | readBare reading script => cases script
  | _ =>
    rw [delivered_nil (by simp), List.append_nil]
    exact heard.other control (by simp) taken

end

section
variable {platform : Platform} {config : MainConfig} {hosts : Nat → Option UInt32} {info : MainInfo}
  {events : List Event}

theorem delivered_unborn {event : Event} {n : Nat} (unborn : info.nodes ≤ n)
    (allowed : enabled info event = true) : delivered n event = [] := by
  apply delivered_apart
  intro about
  have bound := target_bound about allowed
  omega

/-- The tasks of a state have what the events before it delivered to them, and no other task was
addressed. -/
structure Delivered (platform : Platform) (past : List Event) (info : MainInfo) : Prop where
  good : Good info
  heard : ∀ n < info.nodes, Heard platform.sizeBits (info.heap n) (allDelivered n past)
  unborn : ∀ n, info.nodes ≤ n → allDelivered n past = []

theorem allDelivered_concat (n : Nat) (past : List Event) (event : Event) :
    allDelivered n (past ++ [event]) = allDelivered n past ++ delivered n event := by
  simp [allDelivered]

theorem delivered_step (http : builtin config = true) {past : List Event} {event : Event} {next : MainInfo}
    (holds : Delivered platform past info) (taken : step platform config info event = some next) :
    Delivered platform (past ++ [event]) next := by
  have advance := step_advance holds.good taken
  have allowed := (step_eq_some.mp taken).1
  refine ⟨advance.good, fun n bound => ?_, fun n unborn => ?_⟩
  · rw [allDelivered_concat]
    by_cases old : n < info.nodes
    · have life := advance.lived n old
      rw [http] at life
      have heard : Heard platform.sizeBits (view info n).task (allDelivered n past) := holds.heard n old
      exact heard.step (holds.good.lives n old).control life
    · obtain ⟨addr, same⟩ := advance.born n (Nat.le_of_not_lt old) bound
      have task : next.heap n = posted n (UInt64.ofNat (n + 1)) addr := congrArg View.task same
      rw [holds.unborn n (Nat.le_of_not_lt old), delivered_unborn (Nat.le_of_not_lt old) allowed, task]
      exact Heard.fresh _ _
  · have before := Nat.le_trans advance.grown unborn
    rw [allDelivered_concat, holds.unborn n before, delivered_unborn before allowed]
    rfl

/-- In a session with the built-in callbacks, each task has exactly the bytes that libuv delivered to it,
and `do_close` was called for it exactly when the end detector fires on them. -/
theorem reply_delivered (http : builtin config = true) (ran : session platform config hosts events = some info) :
    ∀ n < info.nodes,
      ((info.heap n).reversed = some ⟨allDelivered n events, (allDelivered n events).length⟩ ∨
        (info.heap n).reversed = none ∧ allDelivered n events = []) ∧
      (info.heap n).deleteImmediately = fires platform.sizeBits (allDelivered n events) := by
  obtain ⟨first, begun, rest⟩ := session_split.mp ran
  have start : Delivered platform [] first := by
    obtain ⟨good, fresh⟩ := begin_spec begun
    refine ⟨good, fun n bound => ?_, fun _ _ => rfl⟩
    obtain ⟨addr, same⟩ := fresh n bound
    have task : first.heap n = posted n (UInt64.ofNat (n + 1)) addr := congrArg View.task same
    rw [task]
    exact Heard.fresh _ _
  have holds := run_history (fun _ _ _ _ before taken => delivered_step http before taken) start rest
  rw [List.nil_append] at holds
  intro n bound
  have heard := holds.heard n bound
  refine ⟨?_, heard.detected⟩
  cases reply : (info.heap n).reversed with
  | some data => exact Or.inl (congrArg some (heard.whole data reply))
  | none => exact Or.inr ⟨rfl, heard.silent reply⟩

end

/-- A page in two chunks, of which the second completes its end. -/
def page : List Event :=
  requestSent ++ [.readData 0 (bytes "</htm"), .readData 0 (bytes "l>\r\n\r\n")]

theorem reply_delivered_page :
    ∃ info, session ⟨64, 32⟩ mainConfig (fun _ => none) page = some info ∧ 0 < info.nodes ∧
      (info.heap 0).deleteImmediately = fires 64 (bytes "</html>\r\n\r\n") := by
  obtain ⟨info, ran, bound⟩ : ∃ info, session ⟨64, 32⟩ mainConfig (fun _ => none) page = some info ∧
      0 < info.nodes := ⟨_, rfl, by decide⟩
  have whole : allDelivered 0 page = bytes "</html>\r\n\r\n" := by decide
  refine ⟨info, ran, bound, ?_⟩
  rw [← whole]
  exact (reply_delivered (by decide) ran 0 bound).2

end EasyStressTest.Received
