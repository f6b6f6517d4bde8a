import EasyStressTest.Reachability

/-!
How often `uv_close` is called on the handle of a task. `write_cb` closes again when libuv
cancels a write that was in flight while the handle was closed.
-/

namespace EasyStressTest.SingleClose
open Define HttpTask Options Tasks Libuv Callbacks Loop Execution Lifecycle Population Reachability

def isClose : Act → Bool
  | .close _ => true
  | _ => false

/-- `uv_close` was called at most once on each handle, and never on a closing one. -/
def ClosedOnce (info : MainInfo) : Prop :=
  ∀ n < info.nodes, (actsOf info.log n).countP isClose ≤ 1 ∧ Act.close true ∉ actsOf info.log n

/-- The event closes the open handle of this task, other than by a request that fails. -/
def closes (sizeBits n : Nat) (task : TcpTask) : Event → Bool
  | .readError m _ => m == n
  | .readData m received =>
      m == n && match task.reversed with
        | some httpData => (httpData.onRecv sizeBits received received.length).2
        | none => false
  | .walk => task.conn.state == .opened
  | _ => false

/-- A handle that the event closes has no write in flight. -/
def Quiet (sizeBits : Nat) (info : MainInfo) (event : Event) : Prop :=
  ∀ n < info.nodes, closes sizeBits n (info.heap n) event = true →
    ReqKind.write ∉ (info.heap n).connectReq.submitted

instance (sizeBits : Nat) (info : MainInfo) (event : Event) : Decidable (Quiet sizeBits info event) :=
  inferInstanceAs (Decidable (∀ _ < _, _ → _))

/-- No write waits on a closing handle for its cancellation. -/
def Settled (info : MainInfo) : Prop :=
  ∀ n < info.nodes, uvIsClosing (info.heap n).conn = true →
    ReqKind.write ∉ (info.heap n).connectReq.submitted

/-! One life. -/

structure Single (view : View) : Prop where
  unclosed : uvIsClosing view.task.conn = false → view.acts.countP isClose = 0
  closed : uvIsClosing view.task.conn = true →
    view.acts.countP isClose = 1 ∧ ReqKind.write ∉ view.task.connectReq.submitted
  never : Act.close true ∉ view.acts

section
variable {sizeBits : Nat} {builtin : Bool} {n : Nat} {event : Event} {before after : View}

@[simp] theorem isClose_call (name : Callback) : (call builtin name).countP isClose = 0 := by
  cases builtin <;> rfl

@[simp] theorem close_call (already : Bool) (name : Callback) :
    Act.close already ∉ call builtin name := by
  cases builtin <;> simp [call]

theorem Single.newborn (id : UInt64) (addr : SockaddrIn) :
    Single (newborn builtin n id addr) where
  unclosed := by simp [Lifecycle.newborn, isClose]
  closed := by simp [Lifecycle.newborn, posted, TcpTask.zero, uvIsClosing]
  never := by simp [Lifecycle.newborn]

theorem Single.unchanged (single : Single before)
    (state : after.task.conn.state = before.task.conn.state)
    (acts : after.acts.countP isClose = before.acts.countP isClose)
    (never : Act.close true ∈ after.acts → Act.close true ∈ before.acts)
    (drained : uvIsClosing before.task.conn = true →
      ReqKind.write ∉ after.task.connectReq.submitted) : Single after := by
  have same : uvIsClosing after.task.conn = uvIsClosing before.task.conn := by
    simp only [uvIsClosing, state]
  refine ⟨?_, ?_, fun member => single.never (never member)⟩
  · intro unclosed
    rw [same] at unclosed
    rw [acts]
    exact single.unclosed unclosed
  · intro closed
    rw [same] at closed
    rw [acts]
    exact ⟨(single.closed closed).1, drained closed⟩

/-- The first close of a handle, with no write in flight. -/
theorem Single.closing (single : Single before) (unclosed : uvIsClosing before.task.conn = false)
    {acts : List Act} (grown : after.acts = before.acts ++ acts)
    (once : acts.countP isClose = 1) (never : Act.close true ∉ acts)
    (closed : uvIsClosing after.task.conn = true)
    (drained : ReqKind.write ∉ after.task.connectReq.submitted) : Single after := by
  refine ⟨?_, ?_, ?_⟩
  · intro still
    rw [closed] at still
    cases still
  · intro _
    rw [grown, List.countP_append, single.unclosed unclosed, once]
    exact ⟨rfl, drained⟩
  · intro member
    rw [grown] at member
    rcases List.mem_append.mp member with past | fresh
    · exact single.never past
    · exact never fresh

theorem Single.step (single : Single before) (control : Control before.task)
    (quiet : closes sizeBits n before.task event = true →
      ReqKind.write ∉ before.task.connectReq.submitted)
    (taken : LifeStep sizeBits builtin n event before after) : Single after := by
  have same := single
  obtain ⟨unclosed, closed, never⟩ := single
  cases taken with
  | other => exact same
  | erase timeDeleted marked listed ready =>
    exact same.unchanged rfl (by simp [isClose]) (by simp) (fun closing => (closed closing).2)
  | walkOpen opened =>
    have open' : uvIsClosing before.task.conn = false :=
      (uvIsClosing_eq_false _).mpr (Or.inr opened)
    exact same.closing open' rfl rfl (by simp) (by simp [uvIsClosing])
      (quiet (by simp [closes, opened]))
  | walkOther => exact ⟨unclosed, closed, never⟩
  | workInit queued =>
    have absent := control.absent.mpr queued
    have open' : uvIsClosing before.task.conn = false :=
      (uvIsClosing_eq_false _).mpr (Or.inl absent)
    exact ⟨fun _ => unclosed open', by simp [uvIsClosing], never⟩
  | @workConnect _ r initialised code =>
    refine same.unchanged (by simp) rfl id ?_
    intro closing
    by_cases accepted : r = 0
    · simpa [submit_accepted _ _ _ accepted] using (closed closing).2
    · simpa [submit_refused _ _ _ accepted] using (closed closing).2
  | workReturn connected => exact ⟨unclosed, closed, never⟩
  | afterWork returned => exact ⟨unclosed, closed, never⟩
  | connectOk submitted open' code http =>
    refine same.unchanged (by simp) (by simp [isClose]) (by simp) ?_
    intro closing
    rw [open'] at closing
    cases closing
  | connectBare submitted open' script =>
    refine same.unchanged rfl rfl id ?_
    intro closing
    rw [open'] at closing
    cases closing
  | connectFail failed submitted open' =>
    have alone := control.alone submitted
    exact same.closing open' (List.append_assoc _ _ _) (by simp [isClose]) (by simp)
      (by simp [uvIsClosing]) (by simp [alone])
  | connectCancelled failed submitted closing =>
    have alone := control.alone submitted
    exact same.unchanged rfl (by simp) (by simp) (fun _ => by simp [alone])
  | readNone => exact same
  | readError reads =>
    have opened := ((isReading_iff _).mp reads).1
    have open' : uvIsClosing before.task.conn = false :=
      (uvIsClosing_eq_false _).mpr (Or.inr opened)
    exact same.closing open' rfl rfl (by simp) (by simp [uvIsClosing]) (quiet (by simp [closes]))
  | readMore reads =>
    have opened := ((isReading_iff _).mp reads).1
    refine same.unchanged rfl (by simp [isClose]) (by simp) ?_
    intro closing
    exact absurd closing (by simp [uvIsClosing, opened])
  | readEnd reads http constructed onRecv =>
    have opened := ((isReading_iff _).mp reads).1
    have open' : uvIsClosing before.task.conn = false :=
      (uvIsClosing_eq_false _).mpr (Or.inr opened)
    exact same.closing open' rfl rfl (by simp) (by simp [uvIsClosing])
      (quiet (by simp [closes, constructed, onRecv]))
  | readBare => exact same
  | writeOk submitted open' =>
    refine same.unchanged rfl (by simp) (by simp) ?_
    intro closing
    exact absurd closing (by simp [open'])
  | writeError failed submitted open' =>
    have alone := control.alone submitted
    exact same.closing open' (List.append_assoc _ _ _) (by simp [isClose]) (by simp)
      (by simp [uvIsClosing]) (by simp [alone])
  | writeCancelled failed submitted closing => exact absurd submitted (closed closing).2
  | readRetired closing pending =>
    exact same.unchanged rfl rfl id (fun closing => (closed closing).2)
  | closedQuiet closing retired drained =>
    have was : uvIsClosing before.task.conn = true := by simp [uvIsClosing, closing]
    exact ⟨by simp [uvIsClosing], fun _ => closed was, never⟩
  | closedNotify closing retired drained constructed =>
    have was : uvIsClosing before.task.conn = true := by simp [uvIsClosing, closing]
    exact ⟨by simp [uvIsClosing], fun _ => by simpa using closed was, by simpa using never⟩

/-- The handle was closed under a write: `write_cb` closed it again, or still will. -/
def Doomed (view : View) : Prop :=
  Act.close true ∈ view.acts ∨
    uvIsClosing view.task.conn = true ∧ ReqKind.write ∈ view.task.connectReq.submitted

theorem Doomed.step (doomed : Doomed before) (control : Control before.task)
    (taken : LifeStep sizeBits builtin n event before after) : Doomed after := by
  rcases doomed with already | ⟨closing, writing⟩
  · left
    cases taken <;> simp [already]
  · have alone := control.alone writing
    cases taken with
    | other => exact Or.inr ⟨closing, writing⟩
    | erase => exact Or.inr ⟨closing, writing⟩
    | walkOpen opened => simp [uvIsClosing, opened] at closing
    | walkOther => exact Or.inr ⟨closing, writing⟩
    | workInit queued => simp [(control.unconnected (Or.inl queued)).1] at writing
    | workConnect initialised => simp [(control.unconnected (Or.inr initialised)).1] at writing
    | workReturn => exact Or.inr ⟨closing, writing⟩
    | afterWork => exact Or.inr ⟨closing, writing⟩
    | connectOk submitted => simp [alone] at submitted
    | connectBare submitted => simp [alone] at submitted
    | connectFail _ submitted => simp [alone] at submitted
    | connectCancelled _ submitted => simp [alone] at submitted
    | readNone => exact Or.inr ⟨closing, writing⟩
    | readError => exact Or.inr ⟨by simp [uvIsClosing], writing⟩
    | readMore => exact Or.inr ⟨closing, writing⟩
    | readEnd => exact Or.inr ⟨by simp [uvIsClosing], writing⟩
    | readBare => exact Or.inr ⟨closing, writing⟩
    | writeOk submitted unclosed => simp [unclosed] at closing
    | writeError failed submitted unclosed => simp [unclosed] at closing
    | writeCancelled => exact Or.inl (by simp)
    | readRetired => exact Or.inr ⟨closing, writing⟩
    | closedQuiet state retired drained => simp [drained] at writing
    | closedNotify state retired drained => simp [drained] at writing

/-- Closing a handle under a write dooms it. -/
theorem Doomed.enter (closing : closes sizeBits n before.task event = true)
    (writing : ReqKind.write ∈ before.task.connectReq.submitted)
    (taken : LifeStep sizeBits true n event before after) : Doomed after := by
  cases taken with
  | @other event _ apart staying => cases event <;> simp_all [closes, target]
  | walkOpen opened => exact Or.inr ⟨by simp [uvIsClosing], writing⟩
  | walkOther notOpened => simp [closes, notOpened] at closing
  | readError reads => exact Or.inr ⟨by simp [uvIsClosing], writing⟩
  | readMore reads http constructed onRecv => simp [closes, constructed, onRecv] at closing
  | readEnd reads http constructed onRecv => exact Or.inr ⟨by simp [uvIsClosing], writing⟩
  | readBare reads script => cases script
  | _ => simp [closes] at closing

end

/-! Runs. -/

section
variable {platform : Platform} {config : MainConfig} {hosts : Nat → Option UInt32}
  {events : List Event} {first info : MainInfo}

theorem quiet_single (begun : begin platform config hosts = some first)
    (quiet : Along (step platform config) (Quiet platform.sizeBits) first events)
    (ran : run (step platform config) first events = some info) :
    ∀ n < info.nodes, Single (view info n) :=
  run_lives_along (fun _ id addr => Single.newborn id addr) (fun _ _ _ quiet => quiet)
    (fun _ _ _ _ life single quiet taken => single.step life.control quiet taken) begun quiet ran

theorem closedOnce_of_single (single : ∀ n < info.nodes, Single (view info n)) : ClosedOnce info := by
  intro n bound
  have own := single n bound
  refine ⟨?_, own.never⟩
  cases closing : uvIsClosing (view info n).task.conn with
  | false =>
    calc
      _ = 0 := own.unclosed closing
      _ ≤ 1 := Nat.zero_le 1
  | true => exact Nat.le_of_eq (own.closed closing).1

/-- A step that closes a handle under a write leaves a doomed task for the rest of the run. -/
theorem doomed_of_noisy (http : builtin config = true)
    (begun : begin platform config hosts = some first)
    (ran : run (step platform config) first events = some info)
    (noisy : ¬Along (step platform config) (Quiet platform.sizeBits) first events) :
    ∃ n < info.nodes, Doomed (view info n) := by
  have enters : ∀ state event next, Good state → ¬Quiet platform.sizeBits state event →
      step platform config state event = some next → ∃ n < next.nodes, Doomed (view next n) := by
    intro state event next good notQuiet taken
    simp only [Quiet, not_forall, not_not] at notQuiet
    obtain ⟨n, bound, closing, writing⟩ := notQuiet
    have advance := step_advance good taken
    have lived := advance.lived n bound
    rw [http] at lived
    exact ⟨n, Nat.lt_of_lt_of_le bound advance.grown, Doomed.enter closing writing lived⟩
  have stays : ∀ state event next, Good state → (∃ n < state.nodes, Doomed (view state n)) →
      step platform config state event = some next → ∃ n < next.nodes, Doomed (view next n) := by
    intro state event next good doomed taken
    obtain ⟨n, bound, own⟩ := doomed
    have advance := step_advance good taken
    exact ⟨n, Nat.lt_of_lt_of_le bound advance.grown,
      own.step (good.lives n bound).control (advance.lived n bound)⟩
  exact bad_of_not_along (fun _ event _ good taken => step_good event good taken) enters stays
    (begin_spec begun).1 ran noisy

/-- A run closes each handle at most once when no handle is closed under a write, and only then,
once libuv has delivered the cancellations. -/
theorem closedOnce_of_quiet (http : builtin config = true)
    (begun : begin platform config hosts = some first)
    (ran : run (step platform config) first events = some info) :
    (Along (step platform config) (Quiet platform.sizeBits) first events → ClosedOnce info) ∧
      (Settled info → ClosedOnce info →
        Along (step platform config) (Quiet platform.sizeBits) first events) := by
  apply And.intro
  · intro quiet
    exact closedOnce_of_single (quiet_single begun quiet ran)
  · intro settled once
    by_contra noisy
    obtain ⟨n, bound, doomed⟩ := doomed_of_noisy http begun ran noisy
    rcases doomed with twice | ⟨closing, writing⟩
    · exact (once n bound).2 twice
    · exact settled n bound closing writing

end

/-- One task up to its first read: the request is written, the reply is awaited. -/
def connectedRun : List Event :=
  [.tick fun _ => some 0, .workInit 0, .workConnect 0 0, .workReturn 0, .afterWork 0,
    .connected 0 0 0 0]

theorem closedOnce_of_quiet_answered :
    ∃ info, session ⟨64, 32⟩ mainConfig (fun _ => none)
        (connectedRun ++ [.written 0 0, .readError 0 uvEof, .readRetired 0, .closed 0 0]) = some info ∧
      ClosedOnce info ∧ (actsOf info.log 0).countP isClose = 1 := by
  obtain ⟨first, begun, quiet⟩ : ∃ first,
      begin ⟨64, 32⟩ mainConfig (fun _ => none) = some first ∧
      Along (step ⟨64, 32⟩ mainConfig) (Quiet 64) first
        (connectedRun ++ [.written 0 0, .readError 0 uvEof, .readRetired 0, .closed 0 0]) :=
    ⟨_, rfl, by decide⟩
  obtain ⟨info, ran, closed⟩ : ∃ info, session ⟨64, 32⟩ mainConfig (fun _ => none)
        (connectedRun ++ [.written 0 0, .readError 0 uvEof, .readRetired 0, .closed 0 0]) = some info ∧
      (actsOf info.log 0).countP isClose = 1 := ⟨_, rfl, by decide⟩
  refine ⟨info, ran, ?_, closed⟩
  rw [session, begun] at ran
  exact (closedOnce_of_quiet (by decide) begun ran).1 quiet

/-- The peer closes the connection before the request is written. -/
theorem closed_twice :
    ∃ info, session ⟨64, 32⟩ mainConfig (fun _ => none)
        (connectedRun ++ [.readError 0 uvEof, .written 0 uvEcanceled]) = some info ∧
      builtin mainConfig = true ∧ ¬ClosedOnce info := by
  obtain ⟨info, ran, bound, twice⟩ : ∃ info, session ⟨64, 32⟩ mainConfig (fun _ => none)
        (connectedRun ++ [.readError 0 uvEof, .written 0 uvEcanceled]) = some info ∧
      0 < info.nodes ∧ Act.close true ∈ actsOf info.log 0 := ⟨_, rfl, by decide, by decide⟩
  exact ⟨info, ran, by decide, fun once => (once 0 bound).2 twice⟩

end EasyStressTest.SingleClose
