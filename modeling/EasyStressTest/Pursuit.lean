import EasyStressTest.Reachability

/-!
Whether every task of `task_list` still waits for something that leads to its release.
`work_uv_cb` drops the result of `uv_tcp_connect`, so a task whose connect is refused at once
waits for nothing after `after_work_cb`.
-/

namespace EasyStressTest.Pursuit
open Define HttpTask Options Tasks Libuv Callbacks Loop Execution Lifecycle Population Reachability
open Sweep

/-- An outstanding work, connect or write request, a read, a close, or an entry of
`to_delete_task_list`. -/
def Awaits (info : MainInfo) (n : Nat) : Prop :=
  ((info.heap n).workReq.stage ≠ .idle ∧ (info.heap n).workReq.stage ≠ .delivered) ∨
    (info.heap n).connectReq.submitted ≠ [] ∨ isReading (info.heap n).conn = true ∨
    isClosingNow (info.heap n).conn = true ∨
    ∃ node ∈ info.tasks.toDeleteTaskList, node.ptask = n

def NoneStranded (info : MainInfo) : Prop :=
  ∀ key n, info.tasks.find key = some n → Awaits info n

/-- What keeps a task of a session before its shutdown going. -/
structure Followed (view : View) : Prop where
  initialised : view.walked = false → view.task.workReq.stage = .initialised →
    view.task.conn.state = .opened
  accepted : view.task.workReq.r = 0 → view.task.workReq.stage ≠ .initialised →
    view.task.conn.state = .opened →
    ReqKind.connect ∈ view.task.connectReq.submitted ∨ view.task.conn.reading = true
  rejected : view.walked = false → view.task.workReq.r ≠ 0 →
    view.task.conn.state = .opened ∧ view.task.connectReq.submitted = [] ∧
      view.task.conn.reading = false
  ended : view.walked = false →
    view.task.conn.state = .closing false ∨ view.task.conn.state = .closed →
    view.listed = true → view.marked = 1

section
variable {sizeBits : Nat} {builtin : Bool} {n : Nat} {event : Event} {before after : View}

theorem Followed.newborn (id : UInt64) (addr : SockaddrIn) : Followed (newborn builtin n id addr) where
  initialised := by simp [Lifecycle.newborn, posted]
  accepted := by simp [Lifecycle.newborn, posted, TcpTask.zero]
  rejected := by simp [Lifecycle.newborn, posted]
  ended := by simp [Lifecycle.newborn, posted, TcpTask.zero]

/-- A task with a request in flight or under a read has a connect that was accepted. -/
theorem Followed.active (followed : Followed before) (control : Control before.task)
    (active : before.task.connectReq.submitted ≠ [] ∨ before.task.conn.reading = true) :
    before.task.workReq.stage ≠ .initialised ∧
      (before.walked = false → before.task.workReq.r = 0) := by
  apply And.intro
  · intro early
    have idle := control.unconnected (Or.inr early)
    rcases active with submitted | reading
    · exact submitted idle.1
    · simp [idle.2.1] at reading
  · intro unwalked
    by_contra refused
    have waiting := followed.rejected unwalked refused
    rcases active with submitted | reading
    · exact submitted waiting.2.1
    · simp [waiting.2.2] at reading

/-- Such a task stays followed when an open handle has a connect in flight or is read. -/
theorem Followed.activeStep (followed : Followed before) (control : Control before.task)
    (active : before.task.connectReq.submitted ≠ [] ∨ before.task.conn.reading = true)
    (workReq : after.task.workReq = before.task.workReq) (walked : after.walked = before.walked)
    (accepted : before.task.workReq.r = 0 → after.task.conn.state = .opened →
      ReqKind.connect ∈ after.task.connectReq.submitted ∨ after.task.conn.reading = true)
    (ended : after.walked = false →
      after.task.conn.state = .closing false ∨ after.task.conn.state = .closed →
      after.listed = true → after.marked = 1) : Followed after := by
  obtain ⟨past, zero⟩ := followed.active control active
  refine ⟨?_, ?_, ?_, ended⟩
  · intro _ early
    rw [workReq] at early
    exact absurd early past
  · intro kept _ opened
    rw [workReq] at kept
    exact accepted kept opened
  · intro unwalked refused
    rw [walked] at unwalked
    rw [workReq] at refused
    exact absurd (zero unwalked) refused

theorem Followed.step (followed : Followed before) (life : Life n before)
    (taken : LifeStep sizeBits builtin n event before after) : Followed after := by
  have same := followed
  obtain ⟨initialised, accepted, rejected, ended⟩ := followed
  have control := life.control
  have placed := life.placed
  cases taken with
  | other => exact same
  | erase timeDeleted marked listed ready => exact ⟨initialised, accepted, rejected, by simp⟩
  | walkOpen opened => constructor <;> simp_all
  | walkOther notOpened => constructor <;> simp_all
  | workInit queued =>
    have idle := control.unconnected (Or.inl queued)
    constructor <;> simp_all
  | @workConnect _ r early code =>
    have idle := control.unconnected (Or.inr early)
    by_cases zero : r = 0
    · have submitted := submit_accepted before.task .connect r zero
      constructor <;> simp_all
    · rw [submit_refused _ _ _ zero]
      constructor <;> simp_all
  | workReturn connected => constructor <;> simp_all
  | afterWork returned => constructor <;> simp_all
  | connectOk submitted unclosed code http =>
    have busy := List.ne_nil_of_mem submitted
    exact same.activeStep control (Or.inl busy) (by simp) rfl (by simp) (by simpa using ended)
  | connectBare submitted unclosed script =>
    have busy := List.ne_nil_of_mem submitted
    exact same.activeStep control (Or.inl busy) rfl rfl (by simp) ended
  | connectFail failed submitted unclosed =>
    have busy := List.ne_nil_of_mem submitted
    have opened := control.openedOf submitted unclosed
    have ahead := placed.ahead (Or.inr (Or.inl opened))
    exact same.activeStep control (Or.inl busy) rfl rfl (by simp) (by simp [ahead])
  | connectCancelled failed submitted closing =>
    have busy := List.ne_nil_of_mem submitted
    refine same.activeStep control (Or.inl busy) rfl rfl ?_ ended
    intro _ opened
    exact absurd opened (not_opened_of_closing closing)
  | readNone => exact same
  | readError reads =>
    have reading := ((isReading_iff _).mp reads).2
    exact same.activeStep control (Or.inr reading) rfl rfl (by simp) (by simp)
  | readMore reads => exact ⟨initialised, accepted, rejected, ended⟩
  | readEnd reads =>
    have reading := ((isReading_iff _).mp reads).2
    exact same.activeStep control (Or.inr reading) rfl rfl (by simp) (by simp)
  | readBare => exact same
  | writeOk submitted unclosed =>
    have busy := List.ne_nil_of_mem submitted
    have alone := control.alone submitted
    have past := (same.active control (Or.inl busy)).1
    refine same.activeStep control (Or.inl busy) rfl rfl ?_ ended
    intro zero opened
    rcases accepted zero past opened with connecting | reading
    · simp [alone] at connecting
    · exact Or.inr reading
  | writeError failed submitted unclosed =>
    have busy := List.ne_nil_of_mem submitted
    exact same.activeStep control (Or.inl busy) rfl rfl (by simp) (by simp)
  | writeCancelled failed submitted closing =>
    have busy := List.ne_nil_of_mem submitted
    refine same.activeStep control (Or.inl busy) rfl rfl ?_ ended
    intro _ opened
    exact absurd opened (not_opened_of_closing closing)
  | readRetired closing pending =>
    constructor <;> simp_all
  | closedQuiet closing retired drained => constructor <;> simp_all
  | closedNotify closing retired drained =>
    have ahead := placed.ahead (Or.inr (Or.inr closing))
    constructor <;> simp_all

/-- Only `after_work_cb` completes the work request. -/
theorem delivered_step (taken : LifeStep sizeBits builtin n event before after) :
    after.task.workReq.stage = .delivered ↔
      before.task.workReq.stage = .delivered ∨ event = .afterWork n := by
  cases taken with
  | @other event _ apart staying =>
    have different : event ≠ .afterWork n := by
      intro same
      subst same
      exact apart rfl
    simp [different]
  | _ => simp_all

/-- Only a refused `uv_tcp_connect` leaves a return code other than 0. -/
theorem refused_step (control : Control before.task)
    (taken : LifeStep sizeBits builtin n event before after) :
    after.task.workReq.r ≠ 0 ↔
      before.task.workReq.r ≠ 0 ∨ ∃ r, r ≠ 0 ∧ event = .workConnect n r := by
  cases taken with
  | @other event _ apart staying =>
    have different : ∀ r, event ≠ .workConnect n r := by
      intro r same
      subst same
      exact apart rfl
    simp [different]
  | @workConnect _ r early code =>
    have idle := control.unconnected (Or.inr early)
    simp [idle]
  | _ => simp

end

section
variable {platform : Platform} {config : MainConfig} {hosts : Nat → Option UInt32}
  {events : List Event} {first info : MainInfo}

theorem reachable_followed (reached : Reachable platform config info) :
    ∀ n < info.nodes, Followed (view info n) :=
  reachable_lives (fun _ id addr => Followed.newborn id addr)
    (fun _ _ _ _ life followed taken => followed.step life taken) reached

theorem awaits_of_accepted {n : Nat} (life : Life n (view info n)) (followed : Followed (view info n))
    (unwalked : info.walked = false) (listed : (view info n).listed = true)
    (accepted : (info.heap n).workReq.stage = .delivered → (info.heap n).workReq.r = 0) :
    Awaits info n := by
  by_cases finished : (info.heap n).workReq.stage = .delivered
  · right
    cases state : (info.heap n).conn.state with
    | none =>
      have queued := life.control.absent.mp state
      exact absurd (queued.symm.trans finished) (by decide)
    | opened =>
      have past : (view info n).task.workReq.stage ≠ .initialised := by
        intro early
        exact absurd (early.symm.trans finished) (by decide)
      rcases followed.accepted (accepted finished) past state with connecting | reading
      · exact Or.inl (List.ne_nil_of_mem connecting)
      · exact Or.inr (Or.inl ((isReading_iff _).mpr ⟨state, reading⟩))
    | closing notify => exact Or.inr (Or.inr (Or.inl ((isClosingNow_iff _).mpr ⟨notify, state⟩)))
    | closed =>
      have marked := followed.ended unwalked (Or.inr state) listed
      have positive : 0 < marksOf info.tasks.toDeleteTaskList n := by
        have exactly : marksOf info.tasks.toDeleteTaskList n = 1 := marked
        omega
      obtain ⟨node, member, same⟩ := List.countP_pos_iff.mp positive
      exact Or.inr (Or.inr (Or.inr ⟨node, member, of_decide_eq_true same⟩))
  · exact Or.inl ⟨life.control.started, finished⟩

theorem stranded_of_refused {n : Nat} (life : Life n (view info n)) (followed : Followed (view info n))
    (unwalked : info.walked = false) (finished : (info.heap n).workReq.stage = .delivered)
    (refused : (info.heap n).workReq.r ≠ 0) : (view info n).listed = true ∧ ¬Awaits info n := by
  obtain ⟨opened, drained, unread⟩ := followed.rejected unwalked refused
  obtain ⟨listed, unmarked⟩ := life.placed.ahead (Or.inr (Or.inl opened))
  refine ⟨listed, ?_⟩
  intro awaits
  rcases awaits with working | submitted | reading | closing | ⟨node, member, same⟩
  · exact working.2 finished
  · exact submitted drained
  · have reads := ((isReading_iff _).mp reading).2
    exact absurd (reads.symm.trans unread) (by decide)
  · obtain ⟨notify, state⟩ := (isClosingNow_iff _).mp closing
    exact absurd (state.symm.trans opened) (by simp)
  · have positive := marked_of_mem member
    rw [same, unmarked] at positive
    exact absurd positive (Nat.lt_irrefl 0)

theorem noneStranded_state (good : Good info) (followed : ∀ n < info.nodes, Followed (view info n))
    (unwalked : info.walked = false) :
    NoneStranded info ↔ ∀ n < info.nodes,
      (info.heap n).workReq.stage = .delivered → (info.heap n).workReq.r = 0 := by
  apply Iff.intro
  · intro none n bound finished
    by_contra refused
    obtain ⟨listed, stranded⟩ :=
      stranded_of_refused (good.lives n bound) (followed n bound) unwalked finished refused
    exact stranded (none _ n ((listed_iff n).mp listed))
  · intro accepted key n found
    obtain ⟨bound, same⟩ := good.keyed key n found
    have listed : (view info n).listed = true := by
      rw [listed_iff, same]
      exact found
    exact awaits_of_accepted (good.lives n bound) (followed n bound) unwalked listed (accepted n bound)

/-- A flag of one node that its life raises at certain events is up after a run when one of
these events happened. -/
theorem run_raised (Flag : View → Prop) (Raises : Event → Prop) (n : Nat)
    (unborn : ∀ id addr, ¬Flag (newborn (builtin config) n id addr))
    (bound : ∀ info event, enabled info event = true → Raises event → n < info.nodes)
    (raised : ∀ event before after, Life n before →
      LifeStep platform.sizeBits (builtin config) n event before after →
      (Flag after ↔ Flag before ∨ Raises event))
    (begun : begin platform config hosts = some first)
    (ran : run (step platform config) first events = some info) :
    (n < info.nodes ∧ Flag (view info n)) ↔ ∃ event ∈ events, Raises event := by
  obtain ⟨good, fresh⟩ := begin_spec begun
  have start : ¬(n < first.nodes ∧ Flag (view first n)) := by
    rintro ⟨before, up⟩
    obtain ⟨addr, same⟩ := fresh n before
    rw [same] at up
    exact unborn _ addr up
  have turned : ∀ state event next, Good state → step platform config state event = some next →
      ((n < next.nodes ∧ Flag (view next n)) ↔
        (n < state.nodes ∧ Flag (view state n)) ∨ Raises event) := by
    intro state event next good taken
    have advance := step_advance good taken
    have allowed := (step_eq_some.mp taken).1
    by_cases old : n < state.nodes
    · have later := Nat.lt_of_lt_of_le old advance.grown
      rw [raised event _ _ (good.lives n old) (advance.lived n old)]
      simp [old, later]
    · have quiet : ¬Raises event := fun raises => old (bound state event allowed raises)
      have unflagged : ¬(n < next.nodes ∧ Flag (view next n)) := by
        rintro ⟨before, up⟩
        obtain ⟨addr, same⟩ := advance.born n (Nat.le_of_not_lt old) before
        rw [same] at up
        exact unborn _ addr up
      simp [unflagged, quiet, old]
  rw [run_flag (fun _ event _ good taken => step_good event good taken) turned good ran,
    or_iff_right start]

theorem delivered_iff (begun : begin platform config hosts = some first)
    (ran : run (step platform config) first events = some info) (n : Nat) :
    (n < info.nodes ∧ (info.heap n).workReq.stage = .delivered) ↔ .afterWork n ∈ events := by
  have flags := run_raised (fun view => view.task.workReq.stage = .delivered)
    (fun event => event = .afterWork n) n (by simp [newborn, posted])
    (fun info event allowed raises => target_bound (by rw [raises]; rfl) allowed)
    (fun _ _ _ _ taken => delivered_step taken) begun ran
  rw [exists_eq_right] at flags
  exact flags

theorem refused_iff (begun : begin platform config hosts = some first)
    (ran : run (step platform config) first events = some info) (n : Nat) :
    (n < info.nodes ∧ (info.heap n).workReq.r ≠ 0) ↔ ∃ r, r ≠ 0 ∧ .workConnect n r ∈ events := by
  have flags := run_raised (fun view => view.task.workReq.r ≠ 0)
    (fun event => ∃ r, r ≠ 0 ∧ event = .workConnect n r) n (by simp [newborn, posted])
    (fun info event allowed raises => by
      obtain ⟨r, _, same⟩ := raises
      exact target_bound (by rw [same]; rfl) allowed)
    (fun _ _ _ life taken => refused_step life.control taken) begun ran
  rw [show (info.heap n).workReq.r = (view info n).task.workReq.r from rfl, flags]
  apply Iff.intro
  · rintro ⟨event, member, r, refused, same⟩
    rw [same] at member
    exact ⟨r, refused, member⟩
  · rintro ⟨r, refused, member⟩
    exact ⟨_, member, r, refused, rfl⟩

/-- Before the shutdown no task is stranded, unless `after_work_cb` ran for a task whose
`uv_tcp_connect` was refused. -/
theorem noneStranded_iff (begun : begin platform config hosts = some first)
    (ran : run (step platform config) first events = some info) (unwalked : info.walked = false) :
    NoneStranded info ↔
      ∀ n r, .workConnect n r ∈ events → r ≠ 0 → .afterWork n ∉ events := by
  have reached : Reachable platform config info := ⟨hosts, events, session_split.mpr ⟨first, begun, ran⟩⟩
  rw [noneStranded_state (reachable_good reached) (reachable_followed reached) unwalked]
  apply Iff.intro
  · intro accepted n r connects refused finished
    obtain ⟨bound, stage⟩ := (delivered_iff begun ran n).mpr finished
    exact ((refused_iff begun ran n).mpr ⟨r, refused, connects⟩).2 (accepted n bound stage)
  · intro apart n bound stage
    by_contra refused
    obtain ⟨r, nonzero, connects⟩ := (refused_iff begun ran n).mp ⟨bound, refused⟩
    exact apart n r connects nonzero ((delivered_iff begun ran n).mp ⟨bound, stage⟩)

end

/-- Two tasks, one of which is connected and read while the other waits for its worker. -/
theorem noneStranded_iff_reading :
    ∃ info, session ⟨64, 32⟩ mainConfig (fun _ => none)
        [.tick fun _ => some 0, .tick fun _ => some 0, .workInit 0, .workConnect 0 0, .workReturn 0,
          .afterWork 0, .connected 0 0 0 0, .written 0 0] = some info ∧
      info.nodes = 2 ∧ NoneStranded info := by
  obtain ⟨first, begun⟩ : ∃ first, begin ⟨64, 32⟩ mainConfig (fun _ => none) = some first := ⟨_, rfl⟩
  obtain ⟨info, ran, nodes, unwalked⟩ : ∃ info, session ⟨64, 32⟩ mainConfig (fun _ => none)
        [.tick fun _ => some 0, .tick fun _ => some 0, .workInit 0, .workConnect 0 0, .workReturn 0,
          .afterWork 0, .connected 0 0 0 0, .written 0 0] = some info ∧
      info.nodes = 2 ∧ info.walked = false := ⟨_, rfl, by decide, by decide⟩
  refine ⟨info, ran, nodes, ?_⟩
  rw [session, begun] at ran
  refine (noneStranded_iff begun ran unwalked).mpr ?_
  intro n r connects refused
  simp only [List.mem_cons, Event.workConnect.injEq, reduceCtorEq, false_or, List.not_mem_nil,
    or_false] at connects
  exact absurd connects.2 refused

/-- `uv_tcp_connect` reports `UV_EINVAL`, and nobody looks at it. -/
theorem stranded_refused :
    ∃ info, session ⟨64, 32⟩ mainConfig (fun _ => none)
        [.tick fun _ => some 0, .workInit 0, .workConnect 0 uvEinval, .workReturn 0, .afterWork 0] =
          some info ∧
      builtin mainConfig = true ∧ info.walked = false ∧ ¬NoneStranded info := by
  obtain ⟨info, ran, unwalked, listed, stage, drained, unread, unclosed, unmarked⟩ :
      ∃ info, session ⟨64, 32⟩ mainConfig (fun _ => none)
        [.tick fun _ => some 0, .workInit 0, .workConnect 0 uvEinval, .workReturn 0, .afterWork 0] =
          some info ∧
      info.walked = false ∧ info.tasks.find 1 = some 0 ∧
      (info.heap 0).workReq.stage = .delivered ∧ (info.heap 0).connectReq.submitted = [] ∧
      isReading (info.heap 0).conn = false ∧ isClosingNow (info.heap 0).conn = false ∧
      info.tasks.toDeleteTaskList = [] :=
    ⟨_, rfl, by decide, by decide, by decide, by decide, by decide, by decide, by decide⟩
  refine ⟨info, ran, by decide, unwalked, ?_⟩
  intro none
  have awaits := none 1 0 listed
  simp [Awaits, stage, drained, unread, unclosed, unmarked] at awaits

end EasyStressTest.Pursuit
