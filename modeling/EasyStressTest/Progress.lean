import EasyStressTest.Protocol

/-!
No event fails: in a reachable state the program never dereferences a pointer that is not a
node, and never reads reply data that was not constructed. Only `Add` can return NULL, after
2^64 calls.
-/

namespace EasyStressTest.Progress
open Define HttpTask Options Tasks Libuv Callbacks Loop Execution Lifecycle Simulation Population
open Posting Shutdown Sweep Reachability Protocol

section
variable {platform : Platform} {config : MainConfig} {info : MainInfo} {p : Nat}

theorem connected_returns {status now written : Int} (routed : Routed p (info.heap p)) :
    ∃ next, exec platform config info (.connected p status now written) = some next := by
  have pointer := completed_pointer .connect routed
  simp only [exec, onConnect, pointer, Option.bind_eq_bind, Option.bind_some]
  cases table : builtin config with
  | true =>
    simp only [initCallbacks_http _ table, httpCallbacks, httpOnConnectedFailed,
      httpOnConnectedSuccessful, Option.bind_some, ← apply_ite some]
    exact ⟨_, rfl⟩
  | false =>
    simp only [initCallbacks_script _ table, noCallbacks, ← apply_ite some]
    exact ⟨_, rfl⟩

theorem written_returns {status : Int} (routed : Routed p (info.heap p)) :
    ∃ next, exec platform config info (.written p status) = some next := by
  have pointer := completed_pointer .write routed
  simp only [exec, writeCb, pointer, Option.bind_eq_bind, Option.bind_some]
  cases table : builtin config with
  | true =>
    simp only [initCallbacks_http _ table, httpCallbacks, httpOnSendError, httpOnSendOk,
      Option.bind_some, ← apply_ite some]
    exact ⟨_, rfl⟩
  | false =>
    simp only [initCallbacks_script _ table, noCallbacks, ← apply_ite some]
    exact ⟨_, rfl⟩

theorem read_returns {nread : Int} {buf : UvBuf} (routed : Routed p (info.heap p))
    (constructed : builtin config = true → (info.heap p).reversed.isSome = true) :
    ∃ next, readCb (initCallbacks platform.sizeBits config) info p nread buf = some next := by
  simp only [readCb, routed.connData, nodeOf, Option.bind_eq_bind, Option.bind_some]
  cases table : builtin config with
  | true =>
    obtain ⟨reply, same⟩ := Option.isSome_iff_exists.mp (constructed table)
    have replied : ((info.act p (.callback .onRecv)).heap p).reversed = some reply := same
    simp only [initCallbacks_http _ table, httpCallbacks]
    rw [httpOnRecv_spec (info.act p (.callback .onRecv)) p _ _ _ reply _ _ replied rfl]
    simp only [← apply_ite some]
    exact ⟨_, rfl⟩
  | false =>
    simp only [initCallbacks_script _ table, noCallbacks, ← apply_ite some]
    exact ⟨_, rfl⟩

theorem closed_returns {now : Int} (routed : Routed p (info.heap p))
    (constructed : builtin config = true → (info.heap p).conn.state = .closing true →
      (info.heap p).reversed.isSome = true) :
    ∃ next, exec platform config info (.closed p now) = some next := by
  have pointer := finished_pointer routed
  by_cases notify : (info.heap p).conn.state = .closing true
  · have called : exec platform config info (.closed p now) =
        closeCb (initCallbacks platform.sizeBits config)
          (info.setTask p (finishClose (info.heap p))) p now := by
      simp only [exec, notify]
      rfl
    rw [called]
    simp only [closeCb, pointer, Option.bind_eq_bind, Option.bind_some]
    cases table : builtin config with
    | true =>
      obtain ⟨reply, same⟩ := Option.isSome_iff_exists.mp (constructed table notify)
      simp [initCallbacks_http _ table, httpCallbacks, httpOnClose, same]
    | false =>
      simp only [initCallbacks_script _ table, noCallbacks]
      exact ⟨_, rfl⟩
  · simp only [exec]
    exact ⟨_, rfl⟩

/-- An event about one task never fails. -/
theorem target_returns (platform : Platform) (config : MainConfig) {event : Event}
    (about : target event = some p) (routed : Routed p (info.heap p))
    (constructed : builtin config = true →
      isReading (info.heap p).conn = true ∨ (info.heap p).conn.state = .closing true →
      (info.heap p).reversed.isSome = true)
    (allowed : enabled info event = true) : ∃ next, exec platform config info event = some next := by
  cases event with
  | tick hosts => cases about
  | release now => cases about
  | walk => cases about
  | workInit n =>
    cases about
    simp only [exec, workUvCbInit, routed.workData, nodeOf, Option.bind_eq_bind, Option.bind_some]
    exact ⟨_, rfl⟩
  | workConnect n r =>
    cases about
    simp only [exec, workUvCbConnect, routed.workData, nodeOf, Option.bind_eq_bind, Option.bind_some]
    exact ⟨_, rfl⟩
  | workReturn n => exact ⟨_, rfl⟩
  | afterWork n => exact ⟨_, rfl⟩
  | connected n status now written =>
    cases about
    exact connected_returns routed
  | readNone n => exact ⟨_, rfl⟩
  | readError n nread =>
    cases about
    simp only [enabled, Bool.and_eq_true] at allowed
    exact read_returns routed (fun http => constructed http (Or.inl allowed.1.2))
  | readData n received =>
    cases about
    simp only [enabled, Bool.and_eq_true] at allowed
    exact read_returns routed (fun http => constructed http (Or.inl allowed.1.1.2))
  | written n status =>
    cases about
    exact written_returns routed
  | readRetired n => exact ⟨_, rfl⟩
  | closed n now =>
    cases about
    exact closed_returns routed (fun http state => constructed http (Or.inr state))

/-- An event about a task that is neither read nor awaiting `close_cb` has its step. -/
theorem calm_step (platform : Platform) (config : MainConfig) {event : Event} (good : Good info)
    (about : target event = some p)
    (unread : isReading (info.heap p).conn = false)
    (quiet : (info.heap p).conn.state ≠ .closing true) (allowed : enabled info event = true) :
    ∃ next, step platform config info event = some next ∧ Good next ∧ Frame p info next ∧
      LifeStep platform.sizeBits (builtin config) p event (view info p) (view next p) := by
  have bound := target_bound about allowed
  have routed := (good.lives p bound).routed
  have constructed : builtin config = true →
      isReading (info.heap p).conn = true ∨ (info.heap p).conn.state = .closing true →
      (info.heap p).reversed.isSome = true := by
    intro _ uses
    rcases uses with reads | state
    · simp [unread] at reads
    · exact absurd state quiet
  obtain ⟨next, result⟩ := target_returns platform config about routed constructed allowed
  have taken : step platform config info event = some next := step_eq_some.mpr ⟨allowed, result⟩
  have local' := target_local about routed allowed result
  exact ⟨next, taken, step_good event good taken, local'.frame, local'.life⟩

/-- In a reachable state every event but a tick has its step when libuv allows it. -/
theorem untimed_returns {event : Event} (reached : Reachable platform config info)
    (allowed : enabled info event = true) (untimed : ∀ hosts, event ≠ .tick hosts) :
    ∃ next, exec platform config info event = some next := by
  have good := reachable_good reached
  cases about : target event with
  | some p =>
    have bound := target_bound about allowed
    refine target_returns platform config about (good.lives p bound).routed ?_ allowed
    intro http uses
    exact (reachable_spoken http reached p bound).constructed uses
  | none =>
    cases event with
    | tick hosts => exact absurd rfl (untimed hosts)
    | release now =>
      obtain ⟨next, returns, _⟩ := sweep_spec (t := now) good
      exact ⟨next, returns⟩
    | walk => exact ⟨_, rfl⟩
    | _ => cases about

/-- In a reachable state every event that libuv allows has its step, as long as `Add` is not
called 2^64 times. -/
theorem step_returns {event : Event} (reached : Reachable platform config info)
    (allowed : enabled info event = true)
    (few : info.nodes + config.taskAddOnce.toNat < 2 ^ 64) :
    ∃ next, step platform config info event = some next := by
  have returns : ∃ next, exec platform config info event = some next := by
    cases event with
    | tick hosts =>
      have unwalked : info.walked = false := by simpa [enabled] using allowed
      rw [exec, timerCb_eq]
      split
      · exact postFirst_returns platform config hosts (reachable_good reached) unwalked few
      · exact ⟨info, rfl⟩
    | _ => exact untimed_returns reached allowed (by simp)
  obtain ⟨next, result⟩ := returns
  exact ⟨next, step_eq_some.mpr ⟨allowed, result⟩⟩

end

/-! What each event of a refused connection does to a life. -/

section
variable {sizeBits : Nat} {http : Bool} {p : Nat} {before after : View}

theorem workInit_life (taken : LifeStep sizeBits http p (.workInit p) before after) :
    after = { before with
      task := withStage (withConn before.task (uvTcpInit before.task.conn)) .initialised } := by
  cases taken with
  | other apart => exact absurd rfl apart
  | workInit => rfl

theorem workConnect_life {r : Int} (taken : LifeStep sizeBits http p (.workConnect p r) before after) :
    after = { before with
      task := { submit before.task .connect r with
        workReq := { before.task.workReq with r := r, stage := .connected } } } := by
  cases taken with
  | other apart => exact absurd rfl apart
  | workConnect => rfl

theorem connectFail_life {status now written : Int} (failed : status ≠ 0)
    (unclosed : uvIsClosing before.task.conn = false)
    (taken : LifeStep sizeBits http p (.connected p status now written) before after) :
    after = { before with
      task := closeOpen (complete before.task .connect) false
      marked := before.marked + 1
      acts := before.acts ++ call http .onConnectedFailed ++ [.close false] } := by
  cases taken with
  | other apart => exact absurd rfl apart
  | connectOk => exact absurd rfl failed
  | connectBare => exact absurd rfl failed
  | connectFail => rfl
  | connectCancelled _ _ closing => simp [unclosed] at closing

theorem closedQuiet_life {now : Int} (quiet : before.task.conn.state = .closing false)
    (taken : LifeStep sizeBits http p (.closed p now) before after) :
    after = { before with task := finishClose before.task } := by
  cases taken with
  | other apart => exact absurd rfl apart
  | closedQuiet => rfl
  | closedNotify state => simp [quiet] at state

end

/-! The steps of a refused connection, from the queued work request to the closed handle. -/

section
variable {info : MainInfo} {p : Nat}

theorem workInit_taken (platform : Platform) (config : MainConfig) (good : Good info)
    (bound : p < info.nodes) (queued : (info.heap p).workReq.stage = .queued) :
    ∃ next, step platform config info (.workInit p) = some next ∧ Good next ∧ Frame p info next ∧
      view next p = { view info p with
        task := withStage (withConn (info.heap p) (uvTcpInit (info.heap p).conn)) .initialised } := by
  have absent : (info.heap p).conn.state = .none := (good.lives p bound).control.absent.mpr queued
  obtain ⟨next, taken, kept, frame, life⟩ :=
    calm_step platform config good (rfl : target (.workInit p) = some p)
      (by simp [isReading, absent]) (by simp [absent]) (by simp [enabled, bound, queued])
  exact ⟨next, taken, kept, frame, workInit_life life⟩

theorem workConnect_taken (platform : Platform) (config : MainConfig) {r : Int} (good : Good info)
    (bound : p < info.nodes) (initialised : (info.heap p).workReq.stage = .initialised)
    (opened : (info.heap p).conn.state = .opened) (code : r ≤ 0) :
    ∃ next, step platform config info (.workConnect p r) = some next ∧ Good next ∧
      Frame p info next ∧
      view next p = { view info p with
        task := { submit (info.heap p) .connect r with
          workReq := { (info.heap p).workReq with r := r, stage := .connected } } } := by
  have control : Control (info.heap p) := (good.lives p bound).control
  have unread := (control.unconnected (Or.inr initialised)).2.1
  obtain ⟨next, taken, kept, frame, life⟩ :=
    calm_step platform config good (rfl : target (.workConnect p r) = some p)
      (by simp [isReading, unread]) (by simp [opened])
      (by simp [enabled, bound, initialised, code])
  exact ⟨next, taken, kept, frame, workConnect_life life⟩

theorem connectFail_taken (platform : Platform) (config : MainConfig) {status written : Int} (now : Int)
    (good : Good info) (bound : p < info.nodes)
    (connecting : ReqKind.connect ∈ (info.heap p).connectReq.submitted)
    (opened : (info.heap p).conn.state = .opened) (failed : status ≠ 0) (code : written ≤ 0) :
    ∃ next, step platform config info (.connected p status now written) = some next ∧ Good next ∧
      Frame p info next ∧
      view next p = { view info p with
        task := closeOpen (complete (info.heap p) .connect) false
        marked := (view info p).marked + 1
        acts := (view info p).acts ++ call (builtin config) .onConnectedFailed ++ [.close false] } := by
  have control : Control (info.heap p) := (good.lives p bound).control
  have unread := (control.connecting connecting).1
  have unclosed : uvIsClosing (info.heap p).conn = false := (uvIsClosing_eq_false _).mpr (Or.inr opened)
  obtain ⟨next, taken, kept, frame, life⟩ :=
    calm_step platform config good (rfl : target (.connected p status now written) = some p)
      (by simp [isReading, unread]) (by simp [opened])
      (by simp [enabled, bound, connecting, statusAllowed, unclosed, code])
  exact ⟨next, taken, kept, frame, connectFail_life failed unclosed life⟩

theorem closedQuiet_taken (platform : Platform) (config : MainConfig) (now : Int) (good : Good info)
    (bound : p < info.nodes) (closing : (info.heap p).conn.state = .closing false)
    (retired : (info.heap p).conn.readPending = false)
    (drained : (info.heap p).connectReq.submitted = []) :
    ∃ next, step platform config info (.closed p now) = some next ∧ Good next ∧ Frame p info next ∧
      view next p = { view info p with task := finishClose (info.heap p) } := by
  obtain ⟨next, taken, kept, frame, life⟩ :=
    calm_step platform config good (rfl : target (.closed p now) = some p)
      (by simp [isReading, closing]) (by simp [closing])
      (by simp [enabled, bound, closing, retired, drained, isClosingNow])
  exact ⟨next, taken, kept, frame, closedQuiet_life closing life⟩

end

end EasyStressTest.Progress
