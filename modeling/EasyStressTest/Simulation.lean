import EasyStressTest.Lifecycle

/-!
The program refines the lives of its tasks: seen from one node, every step of the program is
a `LifeStep`. `Frame` says that a step about one task leaves the view of every other task alone.
-/

namespace EasyStressTest.Simulation
open Define HttpTask Options Tasks Libuv Callbacks Loop Execution Lifecycle

/-! What the elementary updates do to views. -/

section
variable (info : MainInfo) (n m : Nat)

@[simp] theorem heap_setTask_self (task : TcpTask) : (info.setTask n task).heap n = task := by
  simp [MainInfo.setTask]

theorem heap_setTask_other (task : TcpTask) (other : m ≠ n) :
    (info.setTask n task).heap m = info.heap m := by
  simp [MainInfo.setTask, other]

@[simp] theorem heap_act (act : Act) : (info.act n act).heap = info.heap := rfl

@[simp] theorem heap_addTaskToBeDeleted (now : Int) :
    (info.addTaskToBeDeleted n now).heap = info.heap := rfl

@[simp] theorem heap_assert (assertion : Assertion) (expr : Bool) :
    (info.assert assertion expr).heap = info.heap := by
  unfold MainInfo.assert
  split <;> rfl

theorem view_setTask_self (task : TcpTask) (same : task.id = (info.heap n).id) :
    view (info.setTask n task) n = { view info n with task := task } := by
  simp [view, MainInfo.setTask, same]

@[simp] theorem view_act_self (act : Act) :
    view (info.act n act) n = { view info n with acts := (view info n).acts ++ [act] } := by
  simp [view, MainInfo.act, actsOf]

@[simp] theorem view_addTaskToBeDeleted_self (now : Int) :
    view (info.addTaskToBeDeleted n now) n =
      { view info n with marked := (view info n).marked + 1 } := by
  simp [view, MainInfo.addTaskToBeDeleted, marksOf, CTasks.find]

@[simp] theorem view_assert (assertion : Assertion) (expr : Bool) :
    view (info.assert assertion expr) n = view info n := by
  unfold MainInfo.assert
  split <;> rfl

end

/-- A change that concerns only node `p` and keeps its id. -/
structure Frame (p : Nat) (info next : MainInfo) : Prop where
  nodes : next.nodes = info.nodes
  walked : next.walked = info.walked
  taskList : next.tasks.taskList = info.tasks.taskList
  curId : next.tasks.curId = info.tasks.curId
  sameId : ∀ m, (next.heap m).id = (info.heap m).id
  apart : ∀ m, m ≠ p → view next m = view info m
  entries : ∀ node ∈ next.tasks.toDeleteTaskList, node ∈ info.tasks.toDeleteTaskList ∨ node.ptask = p
  logged : ∀ entry ∈ next.log, entry ∈ info.log ∨ entry.1 = p

section
variable {p : Nat} {info middle next : MainInfo}

theorem Frame.refl : Frame p info info :=
  ⟨rfl, rfl, rfl, rfl, fun _ => rfl, fun _ _ => rfl, fun _ member => Or.inl member,
    fun _ member => Or.inl member⟩

theorem Frame.trans (first : Frame p info middle) (second : Frame p middle next) : Frame p info next where
  nodes := second.nodes.trans first.nodes
  walked := second.walked.trans first.walked
  taskList := second.taskList.trans first.taskList
  curId := second.curId.trans first.curId
  sameId := fun m => (second.sameId m).trans (first.sameId m)
  apart := fun m other => (second.apart m other).trans (first.apart m other)
  entries := by
    intro node member
    rcases second.entries node member with old | fresh
    · exact first.entries node old
    · exact Or.inr fresh
  logged := by
    intro entry member
    rcases second.logged entry member with old | fresh
    · exact first.logged entry old
    · exact Or.inr fresh

theorem Frame.setTask (task : TcpTask) (same : task.id = (info.heap p).id) :
    Frame p info (info.setTask p task) where
  nodes := rfl
  walked := rfl
  taskList := rfl
  curId := rfl
  sameId := by
    intro m
    by_cases self : m = p
    · subst self
      simpa using same
    · rw [heap_setTask_other info p m task self]
  apart := by
    intro m other
    simp [view, MainInfo.setTask, other]
  entries := fun _ member => Or.inl member
  logged := fun _ member => Or.inl member

theorem Frame.act (act : Act) : Frame p info (info.act p act) where
  nodes := rfl
  walked := rfl
  taskList := rfl
  curId := rfl
  sameId := fun _ => rfl
  apart := by
    intro m other
    simp [view, MainInfo.act, actsOf, Ne.symm other]
  entries := fun _ member => Or.inl member
  logged := by
    intro entry member
    rcases List.mem_append.mp member with old | fresh
    · exact Or.inl old
    · exact Or.inr (by rw [List.mem_singleton.mp fresh])

theorem Frame.assert (assertion : Assertion) (expr : Bool) :
    Frame p info (info.assert assertion expr) := by
  unfold MainInfo.assert
  split
  · exact Frame.refl
  · exact ⟨rfl, rfl, rfl, rfl, fun _ => rfl, fun _ _ => rfl, fun _ member => Or.inl member,
      fun _ member => Or.inl member⟩

theorem Frame.addTaskToBeDeleted (now : Int) : Frame p info (info.addTaskToBeDeleted p now) where
  nodes := rfl
  walked := rfl
  taskList := rfl
  curId := rfl
  sameId := fun _ => rfl
  apart := by
    intro m other
    simp [view, MainInfo.addTaskToBeDeleted, marksOf, CTasks.find, Ne.symm other]
  entries := by
    intro node member
    rcases List.mem_append.mp member with old | fresh
    · exact Or.inl old
    · exact Or.inr (by rw [List.mem_singleton.mp fresh])
  logged := fun _ member => Or.inl member

end

/-! `uv_close` and the helpers of `task.cpp`. -/

section
variable (info : MainInfo) (p : Nat)

theorem frame_uvClose (notify : Bool) : Frame p info (uvClose info p notify) := by
  unfold uvClose
  dsimp only
  split
  · exact Frame.act _
  · exact (Frame.setTask _ (by rfl)).trans (Frame.act _)

theorem view_uvClose_closing (notify : Bool) (closing : uvIsClosing (info.heap p).conn = true) :
    view (uvClose info p notify) p =
      { view info p with acts := (view info p).acts ++ [.close true] } := by
  simp only [uvClose, if_pos closing, view_act_self]

theorem uvClose_open (notify : Bool) (unclosed : uvIsClosing (info.heap p).conn = false) :
    uvClose info p notify = (info.setTask p (closeOpen (info.heap p) notify)).act p (.close false) := by
  simp [uvClose, unclosed]

theorem view_uvClose_open (notify : Bool) (unclosed : uvIsClosing (info.heap p).conn = false) :
    view (uvClose info p notify) p =
      { view info p with
        task := closeOpen (info.heap p) notify, acts := (view info p).acts ++ [.close false] } := by
  rw [uvClose_open info p notify unclosed, view_act_self, view_setTask_self _ _ _ (by rfl)]

theorem frame_doClose (releaseIt : Bool) : Frame p info (doClose info p releaseIt) := by
  unfold doClose
  dsimp only
  have stopped : Frame p info (info.setTask p { info.heap p with conn := uvReadStop (info.heap p).conn }) :=
    Frame.setTask _ (by rfl)
  exact (stopped.trans (frame_uvClose _ p true)).trans (Frame.setTask _ (by rfl))

theorem view_doClose_open (releaseIt : Bool) (unclosed : uvIsClosing (info.heap p).conn = false) :
    view (doClose info p releaseIt) p =
      { view info p with
        task := { closeOpen (info.heap p) true with deleteImmediately := releaseIt }
        acts := (view info p).acts ++ [.close false] } := by
  have stopped : uvIsClosing (uvReadStop (info.heap p).conn) = false := unclosed
  unfold doClose
  dsimp only
  rw [view_setTask_self _ _ _ (by rfl), uvClose_open _ p true (by simpa using stopped), view_act_self,
    view_setTask_self _ _ _ (by rfl), view_setTask_self _ _ _ (by rfl)]
  simp

theorem frame_doWrite (r : Int) : Frame p info (doWrite info p r).1 :=
  (Frame.setTask _ (submit_id _ _ _)).trans (Frame.assert _ _)

theorem view_doWrite (r : Int) :
    view (doWrite info p r).1 p = { view info p with task := submit (info.heap p) .write r } := by
  unfold doWrite
  rw [view_assert, view_setTask_self _ _ _ (submit_id _ _ _)]

theorem heap_doWrite (r : Int) : (doWrite info p r).1.heap p = submit (info.heap p) .write r := by
  simp [doWrite]

theorem frame_doRead : Frame p info (doRead info p).1 :=
  (Frame.setTask _ (by rfl)).trans (Frame.assert _ _)

theorem uvReadStart_open (conn : UvTcp) (unclosed : uvIsClosing conn = false) :
    uvReadStart conn = ({ addRequest conn with reading := true, readPending := true }, 0) := by
  simp [uvReadStart, unclosed]

theorem view_doRead_open (unclosed : uvIsClosing (info.heap p).conn = false) :
    view (doRead info p).1 p = { view info p with task := startRead (info.heap p) } := by
  simp only [doRead, uvReadStart_open _ unclosed]
  rw [view_assert, view_setTask_self _ _ _ (by rfl)]
  rfl

theorem heap_doRead_open (unclosed : uvIsClosing (info.heap p).conn = false) :
    (doRead info p).1.heap p = startRead (info.heap p) :=
  congrArg View.task (view_doRead_open info p unclosed)

end

/-! The HTTP callbacks. -/

section
variable (info : MainInfo) (p : Nat)

theorem httpOnConnectedSuccessful_spec (written : Int)
    (unclosed : uvIsClosing (info.heap p).conn = false) :
    ∃ next, httpOnConnectedSuccessful info p written = some next ∧ Frame p info next ∧
      view next p = { view info p with
        task := withReply (startRead (submit (info.heap p) .write written)) .fresh } := by
  obtain ⟨first, firstEq⟩ : ∃ first, first =
      (doWrite info p written).1.assert .writeStarted (written == 0) := ⟨_, rfl⟩
  obtain ⟨second, secondEq⟩ : ∃ second, second =
      (doRead first p).1.assert .readStarted ((doRead first p).2 == 0) := ⟨_, rfl⟩
  have firstFrame : Frame p info first := by
    rw [firstEq]
    exact (frame_doWrite info p written).trans (Frame.assert _ _)
  have firstHeap : first.heap p = submit (info.heap p) .write written := by
    rw [firstEq, heap_assert, heap_doWrite]
  have firstView : view first p = { view info p with task := first.heap p } := by
    rw [firstHeap, firstEq, view_assert, view_doWrite]
  have still : uvIsClosing (first.heap p).conn = false := by
    rw [firstHeap]
    simpa [uvIsClosing] using unclosed
  have secondFrame : Frame p first second := by
    rw [secondEq]
    exact (frame_doRead first p).trans (Frame.assert _ _)
  have secondHeap : second.heap p = startRead (first.heap p) := by
    rw [secondEq, heap_assert, heap_doRead_open first p still]
  have secondView : view second p = { view info p with task := second.heap p } := by
    rw [secondHeap, secondEq, view_assert, view_doRead_open first p still, firstView]
  have result : httpOnConnectedSuccessful info p written =
      some (second.setTask p (withReply (second.heap p) .fresh)) := by
    rw [secondEq, firstEq]
    rfl
  refine ⟨_, result, (firstFrame.trans secondFrame).trans (Frame.setTask _ (by rfl)), ?_⟩
  rw [view_setTask_self _ _ _ (by rfl), secondView, secondHeap, firstHeap]

theorem httpOnRecv_spec (sizeBits : Nat) (buf : UvBuf) (size : Nat) (reply next : HttpData)
    (finished : Bool) (constructed : (info.heap p).reversed = some reply)
    (onRecv : reply.onRecv sizeBits buf.base size = (next, finished)) :
    httpOnRecv sizeBits info p buf size =
      some (if finished then doClose (info.setTask p (withReply (info.heap p) next)) p true
        else info.setTask p (withReply (info.heap p) next)) := by
  unfold httpOnRecv
  simp only [constructed, Option.bind_eq_bind, Option.bind_some, onRecv, withReply]
  cases finished <;> rfl

end

/-! The events about one task. -/

/-- The event changed node `p` only, by one of the steps of a life. -/
structure LocalStep (platform : Platform) (config : MainConfig) (p : Nat) (event : Event)
    (info next : MainInfo) : Prop where
  frame : Frame p info next
  life : LifeStep platform.sizeBits (builtin config) p event (view info p) (view next p)

theorem initCallbacks_http (sizeBits : Nat) {config : MainConfig} (http : builtin config = true) :
    initCallbacks sizeBits config = httpCallbacks sizeBits := if_pos http

theorem initCallbacks_script (sizeBits : Nat) {config : MainConfig} (script : builtin config = false) :
    initCallbacks sizeBits config = noCallbacks := by
  simp [initCallbacks, script]

theorem call_http {builtin : Bool} (http : builtin = true) (name : Callback) :
    call builtin name = [.callback name] := if_pos http

theorem call_script {builtin : Bool} (script : builtin = false) (name : Callback) :
    call builtin name = [] := by
  simp [call, script]

section
variable {platform : Platform} {config : MainConfig} {info next : MainInfo} {p : Nat}

theorem stage_local {event : Event} {stage : WorkStage}
    (life : LifeStep platform.sizeBits (builtin config) p event (view info p)
      { view info p with task := withStage (info.heap p) stage }) :
    LocalStep platform config p event info (setStage info p stage) where
  frame := Frame.setTask _ (by rfl)
  life := by
    have after : view (setStage info p stage) p =
        { view info p with task := withStage (info.heap p) stage } := view_setTask_self _ _ _ (by rfl)
    rw [after]
    exact life

theorem workInit_local (routed : Routed p (info.heap p))
    (allowed : enabled info (.workInit p) = true)
    (taken : exec platform config info (.workInit p) = some next) :
    LocalStep platform config p (.workInit p) info next := by
  simp only [enabled, Bool.and_eq_true, beq_iff_eq] at allowed
  simp only [exec, workUvCbInit, routed.workData, nodeOf, Option.bind_eq_bind, Option.bind_some,
    Option.map_some, Option.some.injEq] at taken
  subst next
  refine ⟨(Frame.setTask _ (by rfl)).trans (Frame.setTask _ (by rfl)), ?_⟩
  unfold setStage
  rw [view_setTask_self _ _ _ (by rfl), view_setTask_self _ _ _ (by rfl), heap_setTask_self]
  exact LifeStep.workInit allowed.2

theorem workConnect_local {r : Int} (routed : Routed p (info.heap p))
    (allowed : enabled info (.workConnect p r) = true)
    (taken : exec platform config info (.workConnect p r) = some next) :
    LocalStep platform config p (.workConnect p r) info next := by
  simp only [enabled, Bool.and_eq_true, beq_iff_eq, decide_eq_true_eq] at allowed
  simp only [exec, workUvCbConnect, routed.workData, nodeOf, Option.bind_eq_bind, Option.bind_some,
    Option.map_some, Option.some.injEq] at taken
  subst next
  have submitted : Frame p info (info.setTask p (submit (info.heap p) .connect r)) :=
    Frame.setTask _ (submit_id (info.heap p) .connect r)
  refine ⟨(submitted.trans (Frame.setTask _ (by rfl))).trans (Frame.setTask _ (by rfl)), ?_⟩
  unfold setStage
  rw [view_setTask_self _ _ _ (by rfl), view_setTask_self _ _ _ (by rfl),
    view_setTask_self _ _ _ (submit_id _ _ _), heap_setTask_self, heap_setTask_self, submit_workReq]
  exact LifeStep.workConnect allowed.1.2 allowed.2

theorem completed_frame (kind : ReqKind) :
    Frame p info (info.setTask p (complete (info.heap p) kind)) := Frame.setTask _ (by rfl)

theorem completed_view (kind : ReqKind) :
    view (info.setTask p (complete (info.heap p) kind)) p =
      { view info p with task := complete (info.heap p) kind } := view_setTask_self _ _ _ (by rfl)

/-- A callback finds its task through the request that completes. -/
theorem completed_pointer (kind : ReqKind) (routed : Routed p (info.heap p)) :
    nodeOf ((info.setTask p (complete (info.heap p) kind)).heap p).connectReq.data = some p := by
  rw [heap_setTask_self]
  simp only [complete, routed.connectData, nodeOf]

/-- The close callback finds its task through the handle. -/
theorem finished_pointer (routed : Routed p (info.heap p)) :
    nodeOf ((info.setTask p (finishClose (info.heap p))).heap p).conn.data = some p := by
  rw [heap_setTask_self]
  simp only [finishClose, withConn, routed.connData, nodeOf]

/-- The failure branch of `on_connect`, after `on_connected_failed`. -/
theorem connectFailed_local {status now written : Int} {called : MainInfo}
    (failed : status ≠ 0) (submitted : ReqKind.connect ∈ (info.heap p).connectReq.submitted)
    (calledFrame : Frame p info called)
    (calledView : view called p = { view info p with
      task := complete (info.heap p) .connect
      acts := (view info p).acts ++ call (builtin config) .onConnectedFailed })
    (result : next = if uvIsClosing (called.heap p).conn then called
      else (uvClose called p false).addTaskToBeDeleted p now) :
    LocalStep platform config p (.connected p status now written) info next := by
  have calledHeap : called.heap p = complete (info.heap p) .connect := congrArg View.task calledView
  by_cases closing : uvIsClosing (info.heap p).conn = true
  · have still : uvIsClosing (called.heap p).conn = true := by
      rw [calledHeap]
      exact closing
    rw [if_pos still] at result
    subst next
    refine ⟨calledFrame, ?_⟩
    rw [calledView]
    exact LifeStep.connectCancelled failed submitted closing
  · rw [Bool.not_eq_true] at closing
    have still : uvIsClosing (called.heap p).conn = false := by
      rw [calledHeap]
      exact closing
    rw [if_neg (by simp [still])] at result
    subst next
    refine ⟨(calledFrame.trans (frame_uvClose called p false)).trans (Frame.addTaskToBeDeleted now), ?_⟩
    rw [view_addTaskToBeDeleted_self, view_uvClose_open called p false still, calledView, calledHeap]
    exact LifeStep.connectFail failed submitted closing

theorem connected_local {status now written : Int} (routed : Routed p (info.heap p))
    (allowed : enabled info (.connected p status now written) = true)
    (taken : exec platform config info (.connected p status now written) = some next) :
    LocalStep platform config p (.connected p status now written) info next := by
  simp only [enabled, Bool.and_eq_true, List.contains_eq_mem, decide_eq_true_eq] at allowed
  obtain ⟨⟨⟨_, submitted⟩, statusOk⟩, code⟩ := allowed
  have pointer := completed_pointer .connect routed
  simp only [exec, onConnect, pointer, Option.bind_eq_bind, Option.bind_some] at taken
  by_cases failed : status ≠ 0
  · rw [if_pos failed] at taken
    cases table : builtin config with
    | true =>
      simp only [initCallbacks_http _ table, httpCallbacks, httpOnConnectedFailed,
        Option.bind_some, ← apply_ite some, Option.some.injEq] at taken
      refine connectFailed_local failed submitted ((completed_frame _).trans (Frame.act _)) ?_ taken.symm
      rw [view_act_self, completed_view, call_http table]
    | false =>
      simp only [initCallbacks_script _ table, noCallbacks, ← apply_ite some,
        Option.some.injEq] at taken
      refine connectFailed_local failed submitted (completed_frame _) ?_ taken.symm
      rw [completed_view, call_script table, List.append_nil]
  · rw [if_neg failed] at taken
    rw [ne_eq, not_not] at failed
    subst status
    have unclosed : uvIsClosing (info.heap p).conn = false := by
      by_contra closing
      simp [statusAllowed, closing, uvEcanceled] at statusOk
    cases table : builtin config with
    | true =>
      simp only [initCallbacks_http _ table, httpCallbacks] at taken
      have called : uvIsClosing (((info.setTask p (complete (info.heap p) .connect)).act p
          (.callback .onConnectedSuccessful)).heap p).conn = false := by
        rw [heap_act, heap_setTask_self]
        exact unclosed
      obtain ⟨result, returns, resultFrame, resultView⟩ :=
        httpOnConnectedSuccessful_spec _ p written called
      rw [returns, Option.some.injEq] at taken
      subst next
      refine ⟨((completed_frame _).trans (Frame.act _)).trans resultFrame, ?_⟩
      rw [resultView, view_act_self, completed_view, heap_act, heap_setTask_self, table]
      exact LifeStep.connectOk submitted unclosed code rfl
    | false =>
      simp only [initCallbacks_script _ table, noCallbacks, Option.some.injEq] at taken
      subst next
      have completed : uvIsClosing ((info.setTask p (complete (info.heap p) .connect)).heap p).conn =
          false := by
        rw [heap_setTask_self]
        exact unclosed
      refine ⟨(completed_frame _).trans (frame_doRead _ p), ?_⟩
      rw [view_doRead_open _ p completed, completed_view, heap_setTask_self, table]
      exact LifeStep.connectBare submitted unclosed rfl

theorem readNone_local (allowed : enabled info (.readNone p) = true)
    (taken : exec platform config info (.readNone p) = some next) :
    LocalStep platform config p (.readNone p) info next := by
  simp only [enabled, Bool.and_eq_true] at allowed
  simp only [exec, readCb, if_true, Option.some.injEq] at taken
  subst next
  exact ⟨Frame.refl, LifeStep.readNone allowed.2⟩

theorem isReading_unclosed {conn : UvTcp} (reading : isReading conn = true) :
    uvIsClosing conn = false := by
  have opened := ((isReading_iff conn).mp reading).1
  exact (uvIsClosing_eq_false conn).mpr (Or.inr opened)

theorem readError_local {nread : Int} (routed : Routed p (info.heap p))
    (allowed : enabled info (.readError p nread) = true)
    (taken : exec platform config info (.readError p nread) = some next) :
    LocalStep platform config p (.readError p nread) info next := by
  simp only [enabled, Bool.and_eq_true, decide_eq_true_eq] at allowed
  obtain ⟨⟨_, reading⟩, negative⟩ := allowed
  have unclosed := isReading_unclosed reading
  simp only [exec, readCb, routed.connData, nodeOf, if_neg (show ¬nread = 0 by omega),
    Option.bind_eq_bind, Option.bind_some, if_pos negative, Option.some.injEq] at taken
  subst next
  refine ⟨(Frame.assert _ _).trans (frame_uvClose _ p true), ?_⟩
  rw [view_uvClose_open _ p true (by simpa using unclosed), view_assert, heap_assert]
  exact LifeStep.readError reading

theorem fill_front (received : List UInt8) :
    ((allocCb.fill received).base.take received.length) = received := by
  simp [UvBuf.fill]

theorem onRecv_fill (sizeBits : Nat) (reply : HttpData) (received : List UInt8) :
    reply.onRecv sizeBits (allocCb.fill received).base received.length =
      reply.onRecv sizeBits received received.length := by
  simp only [HttpData.onRecv, fill_front, List.take_length]

theorem readData_local {received : List UInt8} (routed : Routed p (info.heap p))
    (allowed : enabled info (.readData p received) = true)
    (taken : exec platform config info (.readData p received) = some next) :
    LocalStep platform config p (.readData p received) info next := by
  simp only [enabled, Bool.and_eq_true, decide_eq_true_eq] at allowed
  obtain ⟨⟨⟨_, reading⟩, positive⟩, _⟩ := allowed
  have unclosed := isReading_unclosed reading
  simp only [exec, readCb, routed.connData, nodeOf,
    if_neg (show ¬(received.length : Int) = 0 by omega),
    if_neg (show ¬(received.length : Int) < 0 by omega), Option.bind_eq_bind, Option.bind_some,
    Int.toNat_natCast] at taken
  cases table : builtin config with
  | true =>
    simp only [initCallbacks_http _ table, httpCallbacks] at taken
    cases constructed : (info.heap p).reversed with
    | none => simp [httpOnRecv, constructed] at taken
    | some reply =>
      have result : reply.onRecv platform.sizeBits received received.length =
          ((reply.onRecv platform.sizeBits received received.length).1,
            (reply.onRecv platform.sizeBits received received.length).2) := rfl
      generalize (reply.onRecv platform.sizeBits received received.length).1 = reply' at result
      generalize (reply.onRecv platform.sizeBits received received.length).2 = finished at result
      rw [httpOnRecv_spec (info.act p (.callback .onRecv)) p _ _ _ reply reply' finished constructed
        ((onRecv_fill _ reply received).trans result), Option.some.injEq, heap_act] at taken
      have replied : view ((info.act p (.callback .onRecv)).setTask p (withReply (info.heap p) reply')) p =
          { view info p with
            task := withReply (info.heap p) reply'
            acts := (view info p).acts ++ [.callback .onRecv] } := by
        rw [view_setTask_self _ _ _ (by rfl), view_act_self]
      have frame : Frame p info
          ((info.act p (.callback .onRecv)).setTask p (withReply (info.heap p) reply')) :=
        (Frame.act _).trans (Frame.setTask _ (by rfl))
      cases finished with
      | true =>
        simp only [if_true] at taken
        subst next
        have open' : uvIsClosing (((info.act p (.callback .onRecv)).setTask p
            (withReply (info.heap p) reply')).heap p).conn = false := by
          rw [heap_setTask_self]
          exact unclosed
        refine ⟨frame.trans (frame_doClose _ p true), ?_⟩
        rw [view_doClose_open _ p true open', replied, heap_setTask_self, table, List.append_assoc]
        exact LifeStep.readEnd reading rfl constructed result
      | false =>
        simp only [Bool.false_eq_true, if_false] at taken
        subst next
        refine ⟨frame, ?_⟩
        rw [replied, table]
        exact LifeStep.readMore reading rfl constructed result
  | false =>
    simp only [initCallbacks_script _ table, noCallbacks, Option.some.injEq] at taken
    subst next
    refine ⟨Frame.refl, ?_⟩
    rw [table]
    exact LifeStep.readBare reading rfl

/-- The failure branch of `write_cb`, after `on_send_error`. -/
theorem writeFailed_local {status : Int} {called : MainInfo}
    (failed : status ≠ 0) (submitted : ReqKind.write ∈ (info.heap p).connectReq.submitted)
    (calledFrame : Frame p info called)
    (calledView : view called p = { view info p with
      task := complete (info.heap p) .write
      acts := (view info p).acts ++ call (builtin config) .onSendError })
    (result : next = uvClose called p true) :
    LocalStep platform config p (.written p status) info next := by
  have calledHeap : called.heap p = complete (info.heap p) .write := congrArg View.task calledView
  subst next
  refine ⟨calledFrame.trans (frame_uvClose called p true), ?_⟩
  by_cases closing : uvIsClosing (info.heap p).conn = true
  · have still : uvIsClosing (called.heap p).conn = true := by
      rw [calledHeap]
      exact closing
    rw [view_uvClose_closing called p true still, calledView]
    exact LifeStep.writeCancelled failed submitted closing
  · rw [Bool.not_eq_true] at closing
    have still : uvIsClosing (called.heap p).conn = false := by
      rw [calledHeap]
      exact closing
    rw [view_uvClose_open called p true still, calledView, calledHeap]
    exact LifeStep.writeError failed submitted closing

theorem written_local {status : Int} (routed : Routed p (info.heap p))
    (allowed : enabled info (.written p status) = true)
    (taken : exec platform config info (.written p status) = some next) :
    LocalStep platform config p (.written p status) info next := by
  simp only [enabled, Bool.and_eq_true, List.contains_eq_mem, decide_eq_true_eq] at allowed
  obtain ⟨⟨_, submitted⟩, statusOk⟩ := allowed
  have pointer := completed_pointer .write routed
  simp only [exec, writeCb, pointer, Option.bind_eq_bind, Option.bind_some] at taken
  by_cases failed : status ≠ 0
  · rw [if_pos failed] at taken
    have completed : Frame p info (info.setTask p (complete (info.heap p) .write)) := completed_frame _
    have asserted := completed.trans
      (Frame.assert .writeStatus (status == uvEconnreset || status == uvEof))
    cases table : builtin config with
    | true =>
      simp only [initCallbacks_http _ table, httpCallbacks, httpOnSendError, Option.bind_some,
        Option.some.injEq] at taken
      refine writeFailed_local failed submitted (asserted.trans (Frame.act _)) ?_ taken.symm
      rw [view_act_self, view_assert, completed_view, call_http table]
    | false =>
      simp only [initCallbacks_script _ table, noCallbacks, Option.some.injEq] at taken
      refine writeFailed_local failed submitted asserted ?_ taken.symm
      rw [view_assert, completed_view, call_script table, List.append_nil]
  · rw [if_neg failed] at taken
    rw [ne_eq, not_not] at failed
    subst status
    have unclosed : uvIsClosing (info.heap p).conn = false := by
      by_contra closing
      simp [statusAllowed, closing, uvEcanceled] at statusOk
    have life : LifeStep platform.sizeBits (builtin config) p (.written p 0) (view info p) _ :=
      LifeStep.writeOk submitted unclosed
    cases table : builtin config with
    | true =>
      simp only [initCallbacks_http _ table, httpCallbacks, httpOnSendOk, Option.some.injEq] at taken
      subst next
      refine ⟨(completed_frame _).trans (Frame.act _), ?_⟩
      rw [call_http table] at life
      rw [view_act_self, completed_view]
      exact life
    | false =>
      simp only [initCallbacks_script _ table, noCallbacks, Option.some.injEq] at taken
      subst next
      refine ⟨completed_frame _, ?_⟩
      rw [call_script table, List.append_nil] at life
      rw [completed_view]
      exact life

theorem readRetired_local (allowed : enabled info (.readRetired p) = true)
    (taken : exec platform config info (.readRetired p) = some next) :
    LocalStep platform config p (.readRetired p) info next := by
  simp only [enabled, Bool.and_eq_true] at allowed
  simp only [exec, Option.some.injEq] at taken
  subst next
  refine ⟨Frame.setTask _ (by rfl), ?_⟩
  rw [view_setTask_self _ _ _ (by rfl)]
  exact LifeStep.readRetired allowed.1.2 allowed.2

theorem finished_view : view (info.setTask p (finishClose (info.heap p))) p =
    { view info p with task := finishClose (info.heap p) } := view_setTask_self _ _ _ (by rfl)

theorem closed_local {now : Int} (routed : Routed p (info.heap p))
    (allowed : enabled info (.closed p now) = true)
    (taken : exec platform config info (.closed p now) = some next) :
    LocalStep platform config p (.closed p now) info next := by
  simp only [enabled, Bool.and_eq_true, Bool.not_eq_true', List.isEmpty_iff] at allowed
  obtain ⟨⟨⟨_, closing⟩, retired⟩, drained⟩ := allowed
  obtain ⟨notify, state⟩ := (isClosingNow_iff _).mp closing
  have finished : Frame p info (info.setTask p (finishClose (info.heap p))) := Frame.setTask _ (by rfl)
  have pointer := finished_pointer routed
  cases notify with
  | false =>
    simp only [exec, state, Option.some.injEq] at taken
    have result : info.setTask p (finishClose (info.heap p)) = next := taken
    subst result
    refine ⟨finished, ?_⟩
    rw [finished_view]
    exact LifeStep.closedQuiet state retired drained
  | true =>
    have called : closeCb (initCallbacks platform.sizeBits config)
        (info.setTask p (finishClose (info.heap p))) p now = some next := by
      simp only [exec, state] at taken
      exact taken
    simp only [closeCb, pointer, Option.bind_eq_bind, Option.bind_some] at called
    cases table : builtin config with
    | true =>
      simp only [initCallbacks_http _ table, httpCallbacks, httpOnClose, Option.bind_eq_bind,
        Option.bind_eq_some_iff, Option.some.injEq] at called
      obtain ⟨reply, constructed, result⟩ := called
      have replied : (info.heap p).reversed = some reply := by
        rw [heap_act, heap_addTaskToBeDeleted, heap_setTask_self] at constructed
        exact constructed
      subst next
      refine ⟨(finished.trans (Frame.addTaskToBeDeleted now)).trans (Frame.act _), ?_⟩
      rw [view_act_self, view_addTaskToBeDeleted_self, finished_view, ← call_http table]
      exact LifeStep.closedNotify state retired drained (fun _ => Option.isSome_of_eq_some replied)
    | false =>
      simp only [initCallbacks_script _ table, noCallbacks, Option.some.injEq] at called
      subst next
      refine ⟨finished.trans (Frame.addTaskToBeDeleted now), ?_⟩
      have life : LifeStep platform.sizeBits (builtin config) p (.closed p now) (view info p) _ :=
        LifeStep.closedNotify state retired drained (by simp [table])
      rw [call_script table, List.append_nil] at life
      rw [view_addTaskToBeDeleted_self, finished_view]
      exact life

/-- Every event about one task changes that task only, by one step of its life. -/
theorem target_local {event : Event} (about : target event = some p)
    (routed : Routed p (info.heap p)) (allowed : enabled info event = true)
    (taken : exec platform config info event = some next) :
    LocalStep platform config p event info next := by
  cases event with
  | tick hosts => cases about
  | release now => cases about
  | walk => cases about
  | workInit n =>
    cases about
    exact workInit_local routed allowed taken
  | workConnect n r =>
    cases about
    exact workConnect_local routed allowed taken
  | workReturn n =>
    cases about
    cases taken
    simp only [enabled, Bool.and_eq_true, beq_iff_eq] at allowed
    exact stage_local (LifeStep.workReturn allowed.2)
  | afterWork n =>
    cases about
    cases taken
    simp only [enabled, Bool.and_eq_true, beq_iff_eq] at allowed
    exact stage_local (LifeStep.afterWork allowed.2)
  | connected n status now written =>
    cases about
    exact connected_local routed allowed taken
  | readNone n =>
    cases about
    exact readNone_local allowed taken
  | readError n nread =>
    cases about
    exact readError_local routed allowed taken
  | readData n received =>
    cases about
    exact readData_local routed allowed taken
  | written n status =>
    cases about
    exact written_local routed allowed taken
  | readRetired n =>
    cases about
    exact readRetired_local allowed taken
  | closed n now =>
    cases about
    exact closed_local routed allowed taken

end

end EasyStressTest.Simulation
