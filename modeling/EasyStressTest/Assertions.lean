import EasyStressTest.Progress

/-!
The assertions, and what a build that has them makes of a session. Some of them take for granted
what the environment decides: that a name resolves, that the request can be sent on a new
connection, and that a connection ends by a reset or an end of file. A request that the program
itself cancels by closing its handle ends in neither of these ways.
-/

namespace EasyStressTest.Assertions
open Define HttpTask Options Tasks Libuv Callbacks Loop Execution Lifecycle Simulation Population
open Posting Shutdown Sweep Reachability Progress

/-- What a build with `_DEBUG` makes of a call that a build without it returns from: the first
assertion that fails ends the program. -/
def debug (info : MainInfo) (returned : Option MainInfo) : Option MainInfo :=
  returned.filter fun next => next.failed == info.failed

section
variable (platform : Platform) (config : MainConfig)

def debugStep (info : MainInfo) (event : Event) : Option MainInfo :=
  debug info (step platform config info event)

/-- `session` in a build with `_DEBUG`. -/
def debugSession (hosts : Nat → Option UInt32) (events : List Event) : Option MainInfo :=
  (debug MainInfo.initial (begin platform config hosts)).bind fun info =>
    run (debugStep platform config) info events

/-- The event is handled to its end and fails no assertion. -/
def Passes (info : MainInfo) (event : Event) : Prop := ∃ next, debugStep platform config info event = some next

end

/-- The two ways in which a connection is expected to break. -/
def ResetOrEnd (status : Int) : Prop := status = uvEconnreset ∨ status = uvEof

instance (status : Int) : Decidable (ResetOrEnd status) := inferInstanceAs (Decidable (_ ∨ _))

/-- What the assertions take for granted about an event. -/
def Meets (config : MainConfig) (info : MainInfo) : Event → Prop
  | .tick hosts => info.tasks.count < config.taskMinRunning.toNat →
      ∀ i < config.taskAddOnce.toNat, hosts i ≠ none ∧ Unused info i
  | .connected _ status _ written => status = 0 → written = 0
  | .readError _ nread => ResetOrEnd nread
  | .written _ status => status = 0 ∨ ResetOrEnd status
  | _ => True

instance (platform : Platform) (config : MainConfig) (info : MainInfo) (event : Event) :
    Decidable (Passes platform config info event) :=
  decidable_of_iff _ Option.isSome_iff_exists

instance (config : MainConfig) (info : MainInfo) : (event : Event) → Decidable (Meets config info event)
  | .tick _ => inferInstanceAs (Decidable (_ → ∀ _ < _, _ ∧ _))
  | .readError _ _ => inferInstanceAs (Decidable (ResetOrEnd _))
  | .written _ _ => inferInstanceAs (Decidable (_ ∨ ResetOrEnd _))
  | .release _ => isTrue trivial
  | .workInit _ => isTrue trivial
  | .workConnect _ _ => isTrue trivial
  | .workReturn _ => isTrue trivial
  | .afterWork _ => isTrue trivial
  | .connected _ _ _ _ => inferInstanceAs (Decidable (_ → _))
  | .readNone _ => isTrue trivial
  | .readData _ _ => isTrue trivial
  | .readRetired _ => isTrue trivial
  | .closed _ _ => isTrue trivial
  | .walk => isTrue trivial

section
variable {info next : MainInfo} {n : Nat}

theorem debug_eq_some {returned : Option MainInfo} :
    debug info returned = some next ↔ returned = some next ∧ next.failed = info.failed := by
  simp [debug]

@[simp] theorem failed_setTask (task : TcpTask) : (info.setTask n task).failed = info.failed := rfl

@[simp] theorem failed_act (act : Act) : (info.act n act).failed = info.failed := rfl

@[simp] theorem failed_addTaskToBeDeleted (now : Int) :
    (info.addTaskToBeDeleted n now).failed = info.failed := rfl

theorem failed_assert {assertion : Assertion} (expr : Bool) :
    (info.assert assertion expr).failed = info.failed ++ if expr then [] else [assertion] := by
  cases expr with
  | true => simp [MainInfo.assert]
  | false => simp [MainInfo.assert]

@[simp] theorem failed_uvClose (notify : Bool) : (uvClose info n notify).failed = info.failed := by
  unfold uvClose
  dsimp only
  split
  · rfl
  · rfl

@[simp] theorem failed_doClose (releaseIt : Bool) : (doClose info n releaseIt).failed = info.failed := by
  simp [doClose]

theorem failed_doWrite (r : Int) :
    (doWrite info n r).1.failed = info.failed ++ if r = 0 then [] else [.writeStarted] := by
  simp [doWrite, failed_assert]

/-- `uv_read_start` succeeds on a handle that is not closing. -/
theorem doRead_open (unclosed : uvIsClosing (info.heap n).conn = false) :
    (doRead info n).1.failed = info.failed ∧ (doRead info n).2 = 0 := by
  simp [doRead, uvReadStart_open _ unclosed, failed_assert]

/-- A write that is refused fails the assertion of `do_write`, and the one of its caller. -/
theorem failed_httpOnConnectedSuccessful {written : Int} (unclosed : uvIsClosing (info.heap n).conn = false)
    (called : httpOnConnectedSuccessful info n written = some next) :
    next.failed = info.failed ++ if written = 0 then [] else [.writeStarted, .writeStarted] := by
  obtain ⟨sent, sentEq⟩ : ∃ sent, sent = (doWrite info n written).1.assert .writeStarted (written == 0) :=
    ⟨_, rfl⟩
  have still : uvIsClosing (sent.heap n).conn = false := by
    rw [sentEq, heap_assert, heap_doWrite]
    simpa [uvIsClosing] using unclosed
  obtain ⟨reading, started⟩ := doRead_open still
  have result : next.failed = ((doRead sent n).1.assert .readStarted ((doRead sent n).2 == 0)).failed := by
    rw [sentEq, ← Option.some.inj called]
    rfl
  rw [result, failed_assert, reading, started, sentEq, failed_assert, failed_doWrite]
  by_cases accepted : written = 0
  · simp [accepted]
  · simp [accepted]

theorem failed_httpOnRecv {sizeBits size : Nat} {buf : UvBuf}
    (called : httpOnRecv sizeBits info n buf size = some next) : next.failed = info.failed := by
  obtain ⟨reply, constructed, result⟩ := Option.bind_eq_some_iff.mp called
  dsimp only at result
  split at result
  · rw [← Option.some.inj result]
    simp
  · rw [← Option.some.inj result]
    simp

/-! The walk and the sweep. -/

theorem failed_closeWalkCb : (closeWalkCb info n).failed = info.failed := by
  unfold closeWalkCb
  split
  · rfl
  · simp

theorem failed_closeLoop : (closeLoop info).failed = info.failed := by
  have walks : ∀ count, (walkFirst info count).failed = info.failed := by
    intro count
    induction count with
    | zero => rfl
    | succ count ih =>
      rw [walkFirst_succ, walkOne]
      split
      · rw [failed_closeWalkCb, ih]
      · exact ih
  exact walks info.nodes

theorem failed_sweepLoop {t : Int} {left piter : Nat} (swept : sweepLoop t left piter info = some next) :
    next.failed = info.failed := by
  induction left generalizing info with
  | zero =>
    rw [← Option.some.inj swept]
  | succ left ih =>
    rw [sweepLoop] at swept
    split at swept
    · rw [← Option.some.inj swept]
    · obtain ⟨node, _, rest⟩ := Option.bind_eq_some_iff.mp swept
      split at rest
      · rw [ih rest]
        rfl
      · rw [← Option.some.inj rest]

theorem failed_release {now : Int} (swept : timerReleaseCb info now = some next) :
    next.failed = info.failed := by
  rw [timerReleaseCb, MainInfo.deleteTaskToBeDeleted] at swept
  split at swept
  · exact failed_sweepLoop swept
  · rw [← Option.some.inj swept]

end

/-! What each event fails. -/

/-- The assertion that an event other than a tick fails. -/
def raised : Event → List Assertion
  | .connected _ status _ written => if status = 0 ∧ written ≠ 0 then [.writeStarted, .writeStarted] else []
  | .readError _ nread => if nread == uvEconnreset || nread == uvEof then [] else [.readStatus]
  | .written _ status =>
      if status = 0 then []
      else if status == uvEconnreset || status == uvEof then [] else [.writeStatus]
  | _ => []

section
variable {platform : Platform} {config : MainConfig} {info next : MainInfo} {p : Nat}

theorem connected_failures {status now written : Int} (http : builtin config = true)
    (routed : Routed p (info.heap p)) (unclosed : status = 0 → uvIsClosing (info.heap p).conn = false)
    (taken : exec platform config info (.connected p status now written) = some next) :
    next.failed = info.failed ++ raised (.connected p status now written) := by
  have pointer := completed_pointer .connect routed
  simp only [exec, onConnect, pointer, Option.bind_eq_bind, Option.bind_some, initCallbacks_http _ http,
    httpCallbacks, httpOnConnectedFailed] at taken
  rw [raised]
  by_cases connects : status = 0
  · rw [if_neg (not_not.mpr connects)] at taken
    rw [failed_httpOnConnectedSuccessful (by simpa [uvIsClosing, MainInfo.setTask] using unclosed connects) taken]
    by_cases accepted : written = 0
    · simp [accepted]
    · simp [accepted, connects]
  · rw [if_pos connects] at taken
    rw [if_neg fun both => connects both.1]
    split at taken
    · rw [← Option.some.inj taken]
      simp
    · rw [← Option.some.inj taken]
      simp

theorem written_failures {status : Int} (http : builtin config = true) (routed : Routed p (info.heap p))
    (taken : exec platform config info (.written p status) = some next) :
    next.failed = info.failed ++ raised (.written p status) := by
  have pointer := completed_pointer .write routed
  simp only [exec, writeCb, pointer, Option.bind_eq_bind, Option.bind_some, initCallbacks_http _ http,
    httpCallbacks, httpOnSendError, httpOnSendOk] at taken
  rw [raised]
  by_cases failed : status ≠ 0
  · rw [if_pos failed, Option.some.injEq] at taken
    rw [if_neg failed, ← taken, failed_uvClose, failed_act, failed_assert, failed_setTask]
  · rw [if_neg failed, Option.some.injEq] at taken
    rw [if_pos (not_not.mp failed), ← taken]
    simp

theorem readError_failures {nread : Int} (negative : nread < 0) (routed : Routed p (info.heap p))
    (taken : exec platform config info (.readError p nread) = some next) :
    next.failed = info.failed ++ raised (.readError p nread) := by
  simp only [exec, readCb, routed.connData, nodeOf, Option.bind_eq_bind, Option.bind_some,
    if_neg (Int.ne_of_lt negative), if_pos negative, Option.some.injEq] at taken
  rw [raised, ← taken, failed_uvClose, failed_assert]

theorem readData_failures {received : List UInt8} (http : builtin config = true)
    (arrived : 0 < received.length) (routed : Routed p (info.heap p))
    (taken : exec platform config info (.readData p received) = some next) :
    next.failed = info.failed := by
  simp only [exec, readCb, routed.connData, nodeOf, Option.bind_eq_bind, Option.bind_some,
    initCallbacks_http _ http, httpCallbacks] at taken
  rw [if_neg (by omega), if_neg (by omega)] at taken
  rw [failed_httpOnRecv taken, failed_act]

theorem closed_failures {now : Int} (http : builtin config = true) (routed : Routed p (info.heap p))
    (taken : exec platform config info (.closed p now) = some next) : next.failed = info.failed := by
  have pointer := finished_pointer routed
  simp only [exec] at taken
  split at taken
  · simp only [finishClose, withConn] at pointer
    simp only [closeCb, pointer, Option.bind_eq_bind, Option.bind_some, initCallbacks_http _ http,
      httpCallbacks, httpOnClose] at taken
    obtain ⟨_, _, same⟩ := Option.bind_eq_some_iff.mp taken
    rw [← Option.some.inj same]
    rfl
  · rw [← Option.some.inj taken]
    rfl

/-- An event other than a tick fails what `raised` says. -/
theorem untimed_failures {event : Event} (http : builtin config = true) (good : Good info)
    (untimed : ∀ hosts, event ≠ .tick hosts) (allowed : enabled info event = true)
    (taken : exec platform config info event = some next) :
    next.failed = info.failed ++ raised event := by
  have routed : ∀ p, target event = some p → Routed p (info.heap p) :=
    fun p about => (good.lives p (target_bound about allowed)).routed
  cases event with
  | tick hosts => exact absurd rfl (untimed hosts)
  | release now => simpa [raised] using failed_release taken
  | walk =>
    rw [← Option.some.inj taken]
    simp [raised, failed_closeLoop]
  | workInit n =>
    simp only [exec, workUvCbInit, (routed n rfl).workData, nodeOf, Option.bind_eq_bind, Option.bind_some,
      Option.map_some, Option.some.injEq] at taken
    rw [← taken]
    simp [setStage, raised]
  | workConnect n r =>
    simp only [exec, workUvCbConnect, (routed n rfl).workData, nodeOf, Option.bind_eq_bind, Option.bind_some,
      Option.map_some, Option.some.injEq] at taken
    rw [← taken]
    simp [setStage, raised]
  | workReturn n =>
    rw [← Option.some.inj taken]
    simp [setStage, raised]
  | afterWork n =>
    rw [← Option.some.inj taken]
    simp [afterWorkCb, setStage, raised]
  | connected n status now written =>
    apply connected_failures http (routed n rfl) _ taken
    intro connects
    simp only [enabled, statusAllowed, Bool.and_eq_true, Bool.or_eq_true] at allowed
    rcases allowed.1.2 with unclosed | cancelled
    · simpa using unclosed
    · simp [connects, uvEcanceled] at cancelled
  | readNone n =>
    rw [← Option.some.inj taken]
    simp [raised]
  | readError n nread =>
    simp only [enabled, Bool.and_eq_true, decide_eq_true_eq] at allowed
    exact readError_failures allowed.2 (routed n rfl) taken
  | readData n received =>
    simp only [enabled, Bool.and_eq_true, decide_eq_true_eq] at allowed
    simpa [raised] using readData_failures http allowed.1.2 (routed n rfl) taken
  | written n status => exact written_failures http (routed n rfl) taken
  | readRetired n =>
    rw [← Option.some.inj taken]
    simp [raised]
  | closed n now => simpa [raised] using closed_failures http (routed n rfl) taken

end

/-! Exactly the events that meet the expectations pass. -/

section
variable {platform : Platform} {config : MainConfig} {info next : MainInfo} {hosts : Nat → Option UInt32}
  {events : List Event} {event : Event}

theorem onInit_iff (http : builtin config = true) (host : Option UInt32) :
    0 ≤ onInitReturned (initCallbacks platform.sizeBits config) host ↔ host ≠ none := by
  rw [initCallbacks_http _ http]
  cases host with
  | none => simp [onInitReturned, httpCallbacks, httpOnInit]
  | some address => simp [onInitReturned, httpCallbacks, httpOnInit]

/-- Every attempt that gets no task fails the assertion of `timer_cb`. -/
theorem postFirst_failures {count : Nat}
    (posts : postFirst (initCallbacks platform.sizeBits config) hosts info count = some next) :
    next.failed = info.failed ++
      List.replicate (count - successes (initCallbacks platform.sizeBits config) hosts count) .timerPosted := by
  induction count generalizing next with
  | zero =>
    cases posts
    simp
  | succ count ih =>
    rw [postFirst_succ] at posts
    obtain ⟨middle, before, last⟩ := Option.bind_eq_some_iff.mp posts
    obtain ⟨⟨result, r⟩, attempt, same⟩ := Option.map_eq_some_iff.mp last
    have atMost := successes_le (initCallbacks platform.sizeBits config) hosts count
    rw [successes_succ, ← same, failed_assert]
    by_cases succeeded : 0 ≤ onInitReturned (initCallbacks platform.sizeBits config) (hosts count)
    · obtain ⟨addr, made⟩ := tcpTaskPost_succeeds middle succeeded
      rw [attempt] at made
      split at made
      · cases made
      · cases made
        have kept : (insertNewborn (builtin config) middle addr).failed = middle.failed := rfl
        rw [kept, ih before, if_pos succeeded, Nat.add_sub_add_right]
        simp
    · have made := tcpTaskPost_negative middle (Int.not_le.mp succeeded)
      rw [attempt] at made
      cases made
      rw [ih before, if_neg succeeded]
      have one : count + 1 - (successes (initCallbacks platform.sizeBits config) hosts count + 0) =
          count - successes (initCallbacks platform.sizeBits config) hosts count + 1 := by omega
      rw [one, List.replicate_succ']
      simp

theorem all_of_successes {callbacks : TcpTaskCallback} {attempts : Nat}
    (all : successes callbacks hosts attempts = attempts) :
    ∀ i < attempts, 0 ≤ onInitReturned callbacks (hosts i) := by
  intro i before
  have full : (List.range attempts).countP (fun i => decide (0 ≤ onInitReturned callbacks (hosts i))) =
      (List.range attempts).length := by
    rw [List.length_range]
    exact all
  exact of_decide_eq_true (List.countP_eq_length.mp full i (List.mem_range.mpr before))

theorem tick_passes_iff (http : builtin config = true) (allowed : enabled info (.tick hosts) = true) :
    Passes platform config info (.tick hosts) ↔ Meets config info (.tick hosts) := by
  have small : config.taskAddOnce.toNat < 2 ^ 64 := by
    have bound := config.taskAddOnce.toNat_lt
    omega
  have ticks : step platform config info (.tick hosts) =
      if info.tasks.count < config.taskMinRunning.toNat then
        postFirst (initCallbacks platform.sizeBits config) hosts info config.taskAddOnce.toNat
      else some info := by
    rw [step, if_pos allowed, exec, timerCb_eq]
  simp only [Passes, debugStep, debug_eq_some]
  rw [Meets, ticks]
  by_cases low : info.tasks.count < config.taskMinRunning.toNat
  · rw [if_pos low]
    have atMost := successes_le (initCallbacks platform.sizeBits config) hosts config.taskAddOnce.toNat
    apply Iff.intro
    · rintro ⟨next, posts, same⟩ _
      rw [postFirst_failures posts, List.append_right_eq_self, List.replicate_eq_nil_iff] at same
      have succeed := all_of_successes (Nat.le_antisymm atMost (Nat.le_of_sub_eq_zero same))
      have unused := (postFirst_all_iff info small succeed).mp ⟨next, posts⟩
      exact fun i before => ⟨(onInit_iff http _).mp (succeed i before), unused i before⟩
    · intro meets
      have succeed : ∀ i < config.taskAddOnce.toNat,
          0 ≤ onInitReturned (initCallbacks platform.sizeBits config) (hosts i) :=
        fun i before => (onInit_iff http _).mpr (meets low i before).1
      obtain ⟨next, posts⟩ := (postFirst_all_iff info small succeed).mpr fun i before => (meets low i before).2
      refine ⟨next, posts, ?_⟩
      rw [postFirst_failures posts, successes_all succeed, Nat.sub_self]
      simp
  · rw [if_neg low]
    exact iff_of_true ⟨info, rfl, rfl⟩ fun lower => absurd lower low

theorem raised_iff (untimed : ∀ hosts, event ≠ .tick hosts) : raised event = [] ↔ Meets config info event := by
  cases event with
  | tick hosts => exact absurd rfl (untimed hosts)
  | connected n status now written => simp [raised, Meets]
  | readError n nread => simp [raised, Meets, ResetOrEnd, or_iff_not_imp_left]
  | written n status => simp [raised, Meets, ResetOrEnd, or_iff_not_imp_left]
  | _ => simp [raised, Meets]

theorem passes_iff (http : builtin config = true) (reached : Reachable platform config info)
    (allowed : enabled info event = true) :
    Passes platform config info event ↔ Meets config info event := by
  by_cases timed : ∃ hosts, event = .tick hosts
  · obtain ⟨hosts, same⟩ := timed
    subst same
    exact tick_passes_iff http allowed
  · have untimed : ∀ hosts, event ≠ .tick hosts := fun hosts same => timed ⟨hosts, same⟩
    obtain ⟨next, result⟩ := untimed_returns reached allowed untimed
    have fails := untimed_failures http (reachable_good reached) untimed allowed result
    simp only [← raised_iff untimed, Passes, debugStep, debug_eq_some]
    apply Iff.intro
    · rintro ⟨other, taken, same⟩
      rw [← Option.some.inj (result.symm.trans (step_eq_some.mp taken).2), fails] at same
      simpa using same
    · intro none
      refine ⟨next, step_eq_some.mpr ⟨allowed, result⟩, ?_⟩
      rw [fails, none, List.append_nil]

/-- A condition on the events of a session, the call of `timer_cb` before the loop included. -/
def Throughout (platform : Platform) (config : MainConfig) (Holds : MainInfo → Event → Prop)
    (hosts : Nat → Option UInt32) (events : List Event) : Prop :=
  (config.floodBegin = true → Holds MainInfo.initial (.tick hosts)) ∧
    ∀ first, begin platform config hosts = some first → Along (step platform config) Holds first events

theorem reachable_step (reached : Reachable platform config info)
    (taken : step platform config info event = some next) : Reachable platform config next := by
  obtain ⟨hosts, events, ran⟩ := reached
  obtain ⟨first, begun, rest⟩ := session_split.mp ran
  refine ⟨hosts, events ++ [event], session_split.mpr ⟨first, begun, run_concat rest ?_⟩⟩
  rw [run, taken]
  rfl

/-- The two builds make the same of a session, to its end, exactly when no event fails an assertion. -/
theorem debugSession_iff :
    (∃ last, debugSession platform config hosts events = some last ∧
        session platform config hosts events = some last) ↔
      Throughout platform config (Passes platform config) hosts events := by
  have within : ∀ info event next, debugStep platform config info event = some next →
      step platform config info event = some next := fun info event next taken => (debug_eq_some.mp taken).1
  have starts : (config.floodBegin = true → Passes platform config MainInfo.initial (.tick hosts)) ↔
      ∃ first, debug MainInfo.initial (begin platform config hosts) = some first := by
    rw [begin_eq]
    cases config.floodBegin with
    | true => simp [Passes, debugStep]
    | false => simp [debug]
  apply Iff.intro
  · rintro ⟨last, debugged, ran⟩
    obtain ⟨first, begun, later⟩ := Option.bind_eq_some_iff.mp debugged
    obtain ⟨other, same, follows⟩ := session_split.mp ran
    cases (debug_eq_some.mp begun).1.symm.trans same
    refine ⟨starts.mpr ⟨first, begun⟩, fun another also => ?_⟩
    cases same.symm.trans also
    exact (run_both_iff within).mp ⟨last, later, follows⟩
  · rintro ⟨flood, along⟩
    obtain ⟨first, begun⟩ := starts.mp flood
    have begins := (debug_eq_some.mp begun).1
    obtain ⟨last, debugged, ran⟩ := (run_both_iff within).mpr (along first begins)
    exact ⟨last, Option.bind_eq_some_iff.mpr ⟨first, begun, debugged⟩, session_split.mpr ⟨first, begins, ran⟩⟩

theorem throughout_iff (http : builtin config = true)
    (permitted : Throughout platform config (fun info event => enabled info event = true) hosts events) :
    Throughout platform config (Passes platform config) hosts events ↔
      Throughout platform config (Meets config) hosts events := by
  apply and_congr
  · apply imp_congr_right
    intro flood
    exact tick_passes_iff http (permitted.1 flood)
  · apply forall_congr'
    intro first
    apply imp_congr_right
    intro begun
    apply along_congr (fun _ _ _ reached _ _ taken => reachable_step reached taken)
      (fun _ _ reached allowed => passes_iff http reached allowed) _ (permitted.2 first begun)
    exact ⟨hosts, [], session_split.mpr ⟨first, begun, rfl⟩⟩

/-- Exactly when every event is as the assertions expect, no assertion fails in a session, and a
debug build makes the same of it as a release build. -/
theorem assertions_iff (http : builtin config = true)
    (permitted : Throughout platform config (fun info event => enabled info event = true) hosts events) :
    (Throughout platform config (Passes platform config) hosts events ↔
        Throughout platform config (Meets config) hosts events) ∧
      ((∃ last, debugSession platform config hosts events = some last ∧
          session platform config hosts events = some last) ↔
        Throughout platform config (Meets config) hosts events) :=
  ⟨throughout_iff http permitted, debugSession_iff.trans (throughout_iff http permitted)⟩

end

/-- By default nothing comes before the loop. -/
theorem throughout_default {platform : Platform} {Holds : MainInfo → Event → Prop}
    {hosts : Nat → Option UInt32} {events : List Event} :
    Throughout platform mainConfig Holds hosts events ↔
      Along (step platform mainConfig) Holds MainInfo.initial events := by
  constructor
  · intro throughout
    exact throughout.2 MainInfo.initial rfl
  · intro along
    refine ⟨fun flood => absurd flood (by decide), fun first begun => ?_⟩
    cases begun
    exact along

/-- The request is sent, and the connection ends. -/
theorem assertions_iff_sent :
    ∃ last, debugSession ⟨64, 32⟩ mainConfig (fun _ => none)
        (requestSent ++ [.written 0 0, .readError 0 uvEof]) = some last ∧
      session ⟨64, 32⟩ mainConfig (fun _ => none)
        (requestSent ++ [.written 0 0, .readError 0 uvEof]) = some last :=
  (assertions_iff (by decide) (throughout_default.mpr (by decide))).2.mpr (throughout_default.mpr (by decide))

/-- A debug build fails an assertion and ends, where a release build goes on. -/
structure Aborts (platform : Platform) (config : MainConfig) (hosts : Nat → Option UInt32)
    (events : List Event) : Prop where
  permitted : Throughout platform config (fun info event => enabled info event = true) hosts events
  fails : ¬Throughout platform config (Passes platform config) hosts events
  aborts : debugSession platform config hosts events = none
  goesOn : ∃ last, session platform config hosts events = some last

/-- A name that does not resolve fails the assertion of `timer_cb`; a request that cannot be sent on a
new connection those of `do_write` and its caller; and a write that the program cancels by closing its
connection the one of `write_cb`. -/
theorem unresolved_refused_cancelled :
    Aborts ⟨64, 32⟩ mainConfig (fun _ => none) [.tick fun _ => none] ∧
      Aborts ⟨64, 32⟩ mainConfig (fun _ => none)
        [.tick fun _ => some 0, .workInit 0, .workConnect 0 0, .connected 0 0 0 (-32)] ∧
      Aborts ⟨64, 32⟩ mainConfig (fun _ => none)
        (requestSent ++ [.readError 0 uvEof, .written 0 uvEcanceled]) := by
  have aborting : ∀ events, Along (step ⟨64, 32⟩ mainConfig) (fun info event => enabled info event = true)
      MainInfo.initial events → debugSession ⟨64, 32⟩ mainConfig (fun _ => none) events = none →
      (session ⟨64, 32⟩ mainConfig (fun _ => none) events).isSome = true →
      Aborts ⟨64, 32⟩ mainConfig (fun _ => none) events := by
    intro events permitted aborts goesOn
    refine ⟨throughout_default.mpr permitted, fun passes => ?_, aborts, Option.isSome_iff_exists.mp goesOn⟩
    obtain ⟨last, debugged, _⟩ := debugSession_iff.mpr passes
    cases aborts.symm.trans debugged
  exact ⟨aborting _ (by decide) rfl rfl, aborting _ (by decide) rfl rfl, aborting _ (by decide) rfl rfl⟩

end EasyStressTest.Assertions
