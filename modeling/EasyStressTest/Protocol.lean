import EasyStressTest.Reachability

/-!
The order in which a task gets its callbacks. No field of the task records it: it follows from
which close callback each path registers, from the test in `on_connect`, and from libuv's order
of cancelled requests and close callbacks.
-/

namespace EasyStressTest.Protocol
open Define HttpTask Options Tasks Libuv Callbacks Loop Execution Lifecycle Population Reachability

def callbackName : Act → Option Callback
  | .callback name => some name
  | _ => none

/-- The callbacks that were made, in order. -/
def callbacks (acts : List Act) : List Callback := acts.filterMap callbackName

def isSend : Callback → Bool
  | .onSendOk => true
  | .onSendError => true
  | _ => false

/-- Between the connect and the close: `on_recv` any number of times, at most one result of the
write, and no `on_recv` after a failed one. -/
structure Body (body : List Callback) : Prop where
  names : ∀ name ∈ body, name = .onRecv ∨ isSend name = true
  single : body.countP isSend ≤ 1
  silent : ∀ front rest, body = front ++ .onSendError :: rest → .onRecv ∉ rest

/-- All the callbacks of a whole life. -/
inductive Conversation : List Callback → Prop where
  | failed : Conversation [.onInit, .onConnectedFailed]
  | left (body : List Callback) (wellFormed : Body body) :
      Conversation (.onInit :: .onConnectedSuccessful :: body)
  | closed (body : List Callback) (wellFormed : Body body) :
      Conversation (.onInit :: .onConnectedSuccessful :: body ++ [.onClose])

theorem Body.empty : Body [] where
  names := by simp
  single := by simp
  silent := by simp

theorem Body.recv {body : List Callback} (wellFormed : Body body) (unfailed : .onSendError ∉ body) :
    Body (body ++ [.onRecv]) where
  names := by
    intro name member
    rcases List.mem_append.mp member with past | last
    · exact wellFormed.names name past
    · exact Or.inl (List.mem_singleton.mp last)
  single := by
    rw [List.countP_append]
    exact wellFormed.single
  silent := by
    intro front rest split
    have member : Callback.onSendError ∈ body ++ [.onRecv] := by
      rw [split]
      simp
    rcases List.mem_append.mp member with past | last
    · exact absurd past unfailed
    · cases List.mem_singleton.mp last

theorem Body.send {body : List Callback} (wellFormed : Body body) (unsent : body.countP isSend = 0)
    {name : Callback} (send : isSend name = true) : Body (body ++ [name]) where
  names := by
    intro other member
    rcases List.mem_append.mp member with past | last
    · exact wellFormed.names other past
    · rw [List.mem_singleton.mp last]
      exact Or.inr send
  single := by
    rw [List.countP_append, unsent, List.countP_singleton, if_pos send]
  silent := by
    intro front rest split
    rcases List.eq_nil_or_concat rest with empty | ⟨others, last, same⟩
    · rw [empty]
      exact List.not_mem_nil
    · have earlier : body = front ++ .onSendError :: others := by
        rw [same, List.concat_eq_append] at split
        have shifted : body ++ [name] = (front ++ .onSendError :: others) ++ [last] := by
          rw [split]
          simp
        exact (List.append_inj' shifted rfl).1
      have member : Callback.onSendError ∈ body := by
        rw [earlier]
        simp
      exact absurd rfl (List.countP_eq_zero.mp unsent _ member)

section
variable (acts more : List Act) (name : Callback) (already : Bool) (id : UInt64)

@[simp] theorem callbacks_append : callbacks (acts ++ more) = callbacks acts ++ callbacks more :=
  List.filterMap_append

@[simp] theorem callbacks_callback : callbacks [.callback name] = [name] := rfl
@[simp] theorem callbacks_close : callbacks [.close already] = [] := rfl
@[simp] theorem callbacks_erased : callbacks [.erased id] = [] := rfl
@[simp] theorem callbacks_recvClose :
    callbacks [.callback name, .close already] = [name] := rfl
@[simp] theorem callbacks_call : callbacks (call true name) = [name] := rfl

end

/-! How far the conversation of one task has come. -/

structure Waiting (task : TcpTask) : Prop where
  quiet : task.conn.state ≠ .closing true
  unread : task.conn.reading = false
  unwritten : ReqKind.write ∉ task.connectReq.submitted

structure Failed (task : TcpTask) : Prop where
  past : Past task
  drained : task.connectReq.submitted = []
  closing : task.conn.state = .closing false ∨ task.conn.state = .closed

structure Talking (task : TcpTask) (body : List Callback) : Prop where
  past : Past task
  constructed : task.reversed.isSome = true
  wellFormed : Body body
  connected : ReqKind.connect ∉ task.connectReq.submitted
  unsent : ReqKind.write ∈ task.connectReq.submitted → body.countP isSend = 0
  unfailed : .onSendError ∈ body → task.conn.state ≠ .opened

structure Ended (task : TcpTask) (body : List Callback) : Prop where
  past : Past task
  wellFormed : Body body
  drained : task.connectReq.submitted = []
  closed : task.conn.state = .closed

inductive Spoken (view : View) : Prop where
  | waiting (word : callbacks view.acts = [.onInit]) (waiting : Waiting view.task)
  | failed (word : callbacks view.acts = [.onInit, .onConnectedFailed]) (failed : Failed view.task)
  | talking (body : List Callback) (word : callbacks view.acts = .onInit :: .onConnectedSuccessful :: body)
      (talking : Talking view.task body)
  | ended (body : List Callback)
      (word : callbacks view.acts = .onInit :: .onConnectedSuccessful :: body ++ [.onClose])
      (ended : Ended view.task body)

section
variable {sizeBits : Nat} {n : Nat} {event : Event} {before after : View}

theorem Spoken.newborn (id : UInt64) (addr : SockaddrIn) : Spoken (newborn true n id addr) :=
  .waiting rfl
    { quiet := by simp [Lifecycle.newborn, posted, TcpTask.zero]
      unread := rfl
      unwritten := by simp [Lifecycle.newborn, posted] }

theorem failed_step (word : callbacks before.acts = [.onInit, .onConnectedFailed])
    (failed : Failed before.task)
    (taken : LifeStep sizeBits true n event before after) : Spoken after := by
  obtain ⟨past, drained, closing⟩ := failed
  have unread : isReading before.task.conn = false := by
    rcases closing with state | state <;> simp [isReading, state]
  have quiet : before.task.conn.state ≠ .closing true ∧ before.task.conn.state ≠ .opened := by
    rcases closing with state | state <;> simp [state]
  cases taken with
  | walkOpen opened => exact absurd opened quiet.2
  | workInit queued => exact absurd queued past.1
  | workConnect initialised => exact absurd initialised past.2
  | connectOk submitted => simp [drained] at submitted
  | connectFail _ submitted => simp [drained] at submitted
  | connectCancelled _ submitted => simp [drained] at submitted
  | readNone reads => simp [unread] at reads
  | readError reads => simp [unread] at reads
  | readMore reads => simp [unread] at reads
  | readEnd reads => simp [unread] at reads
  | writeOk submitted => simp [drained] at submitted
  | writeError _ submitted => simp [drained] at submitted
  | writeCancelled _ submitted => simp [drained] at submitted
  | closedNotify state => exact absurd state quiet.1
  | closedQuiet => exact .failed word ⟨past, drained, Or.inr rfl⟩
  | erase => exact .failed (by simpa using word) ⟨past, drained, closing⟩
  | workReturn => exact .failed word ⟨by simp [Past], drained, closing⟩
  | afterWork => exact .failed word ⟨by simp [Past], drained, closing⟩
  | connectBare _ _ script => cases script
  | readBare _ script => cases script
  | _ => exact .failed word ⟨past, drained, closing⟩

theorem ended_step {body : List Callback}
    (word : callbacks before.acts = .onInit :: .onConnectedSuccessful :: body ++ [.onClose])
    (ended : Ended before.task body) (taken : LifeStep sizeBits true n event before after) :
    Spoken after := by
  obtain ⟨past, wellFormed, drained, closed⟩ := ended
  have unread : isReading before.task.conn = false := by simp [isReading, closed]
  have unclosing : isClosingNow before.task.conn = false := by simp [isClosingNow, closed]
  cases taken with
  | walkOpen opened => simp [closed] at opened
  | workInit queued => exact absurd queued past.1
  | workConnect initialised => exact absurd initialised past.2
  | connectOk submitted => simp [drained] at submitted
  | connectBare submitted => simp [drained] at submitted
  | connectFail _ submitted => simp [drained] at submitted
  | connectCancelled _ submitted => simp [drained] at submitted
  | readNone reads => simp [unread] at reads
  | readError reads => simp [unread] at reads
  | readMore reads => simp [unread] at reads
  | readEnd reads => simp [unread] at reads
  | readBare reads => simp [unread] at reads
  | writeOk submitted => simp [drained] at submitted
  | writeError _ submitted => simp [drained] at submitted
  | writeCancelled _ submitted => simp [drained] at submitted
  | readRetired closing => simp [unclosing] at closing
  | closedQuiet state => simp [closed] at state
  | closedNotify state => simp [closed] at state
  | erase => exact .ended body (by simpa using word) ⟨past, wellFormed, drained, closed⟩
  | workReturn => exact .ended body word ⟨by simp [Past], wellFormed, drained, closed⟩
  | afterWork => exact .ended body word ⟨by simp [Past], wellFormed, drained, closed⟩
  | other => exact .ended body word ⟨past, wellFormed, drained, closed⟩
  | walkOther => exact .ended body word ⟨past, wellFormed, drained, closed⟩

theorem waiting_step (word : callbacks before.acts = [.onInit]) (waiting : Waiting before.task)
    (control : Control before.task) (taken : LifeStep sizeBits true n event before after) :
    Spoken after := by
  have same := waiting
  obtain ⟨quiet, unread, unwritten⟩ := waiting
  have unreading : isReading before.task.conn = false := by simp [isReading, unread]
  cases taken with
  | other => exact .waiting word same
  | erase => exact .waiting (by simpa using word) same
  | walkOpen opened => exact .waiting (by simpa using word) ⟨by simp, rfl, unwritten⟩
  | walkOther => exact .waiting word same
  | workInit queued => exact .waiting word ⟨by simp, rfl, unwritten⟩
  | @workConnect _ r initialised code =>
    have idle := control.unconnected (Or.inr initialised)
    refine .waiting word ⟨by simpa using quiet, by simpa using unread, ?_⟩
    by_cases accepted : r = 0
    · simp [submit_accepted _ _ _ accepted, idle.1]
    · simp [submit_refused _ _ _ accepted, idle.1]
  | workReturn => exact .waiting word ⟨quiet, unread, unwritten⟩
  | afterWork => exact .waiting word ⟨quiet, unread, unwritten⟩
  | @connectOk _ now written submitted unclosed code http =>
    have alone := control.alone submitted
    have past := control.past submitted
    refine .talking [] (by simp [word]) ⟨by simpa [Past] using past, rfl, Body.empty, ?_, by simp, by simp⟩
    by_cases accepted : written = 0 <;> simp [submit, accepted, alone]
  | connectBare _ _ script => cases script
  | connectFail failed submitted unclosed =>
    have alone := control.alone submitted
    exact .failed (by simp [word]) ⟨control.past submitted, by simp [alone], Or.inl rfl⟩
  | connectCancelled failed submitted closing =>
    have alone := control.alone submitted
    have ending : before.task.conn.state = .closing false ∨ before.task.conn.state = .closed := by
      rcases (uvIsClosing_eq_true _).mp closing with ⟨notify, state⟩ | state
      · cases notify
        · exact Or.inl state
        · exact absurd state quiet
      · exact Or.inr state
    exact .failed (by simp [word]) ⟨control.past submitted, by simp [alone], ending⟩
  | readNone reads => simp [unreading] at reads
  | readError reads => simp [unreading] at reads
  | readMore reads => simp [unreading] at reads
  | readEnd reads => simp [unreading] at reads
  | readBare reads => simp [unreading] at reads
  | writeOk submitted => exact absurd submitted unwritten
  | writeError _ submitted => exact absurd submitted unwritten
  | writeCancelled _ submitted => exact absurd submitted unwritten
  | readRetired => exact .waiting word ⟨quiet, unread, unwritten⟩
  | closedQuiet => exact .waiting word ⟨by simp, unread, unwritten⟩
  | closedNotify state => exact absurd state quiet

theorem talking_step {body : List Callback}
    (word : callbacks before.acts = .onInit :: .onConnectedSuccessful :: body)
    (talking : Talking before.task body) (control : Control before.task)
    (taken : LifeStep sizeBits true n event before after) : Spoken after := by
  have same := talking
  obtain ⟨past, constructed, wellFormed, connected, unsent, unfailed⟩ := talking
  cases taken with
  | other => exact .talking body word same
  | erase => exact .talking body (by simpa using word) same
  | walkOpen opened =>
    exact .talking body (by simpa using word) ⟨past, constructed, wellFormed, connected, unsent, by simp⟩
  | walkOther => exact .talking body word same
  | workInit queued => exact absurd queued past.1
  | workConnect initialised => exact absurd initialised past.2
  | workReturn =>
    exact .talking body word ⟨by simp [Past], constructed, wellFormed, connected, unsent, unfailed⟩
  | afterWork =>
    exact .talking body word ⟨by simp [Past], constructed, wellFormed, connected, unsent, unfailed⟩
  | connectOk submitted => exact absurd submitted connected
  | connectBare submitted => exact absurd submitted connected
  | connectFail _ submitted => exact absurd submitted connected
  | connectCancelled _ submitted => exact absurd submitted connected
  | readNone => exact .talking body word same
  | readError =>
    exact .talking body (by simpa using word) ⟨past, constructed, wellFormed, connected, unsent, by simp⟩
  | readMore reads =>
    have opened := ((isReading_iff _).mp reads).1
    have clean : Callback.onSendError ∉ body := fun member => unfailed member opened
    refine .talking (body ++ [.onRecv]) (by simp [word])
      ⟨past, rfl, wellFormed.recv clean, connected, ?_, ?_⟩
    · intro writing
      rw [List.countP_append, unsent writing]
      rfl
    · intro member
      exact absurd member (by simp [clean])
  | readEnd reads =>
    have opened := ((isReading_iff _).mp reads).1
    have clean : Callback.onSendError ∉ body := fun member => unfailed member opened
    refine .talking (body ++ [.onRecv]) (by simp [word])
      ⟨past, rfl, wellFormed.recv clean, connected, ?_, by simp⟩
    intro writing
    rw [List.countP_append, unsent writing]
    rfl
  | readBare _ script => cases script
  | writeOk submitted unclosed =>
    have alone := control.alone submitted
    have none := unsent submitted
    have clean : Callback.onSendError ∉ body :=
      fun member => absurd rfl (List.countP_eq_zero.mp none _ member)
    refine .talking (body ++ [.onSendOk]) (by simp [word])
      ⟨past, constructed, wellFormed.send none rfl, by simp [alone], by simp [alone], ?_⟩
    intro member
    exact absurd member (by simp [clean])
  | writeError failed submitted unclosed =>
    have alone := control.alone submitted
    exact .talking (body ++ [.onSendError]) (by simp [word])
      ⟨past, constructed, wellFormed.send (unsent submitted) rfl, by simp [alone], by simp [alone],
        by simp⟩
  | writeCancelled failed submitted closing =>
    have alone := control.alone submitted
    refine .talking (body ++ [.onSendError]) (by simp [word])
      ⟨past, constructed, wellFormed.send (unsent submitted) rfl, by simp [alone], by simp [alone], ?_⟩
    exact fun _ => not_opened_of_closing closing
  | readRetired =>
    exact .talking body word ⟨past, constructed, wellFormed, connected, unsent, unfailed⟩
  | closedQuiet =>
    exact .talking body word ⟨past, constructed, wellFormed, connected, unsent, by simp⟩
  | closedNotify state retired drained =>
    exact .ended body (by simp [word]) ⟨past, wellFormed, drained, rfl⟩

theorem Spoken.step (spoken : Spoken before) (control : Control before.task)
    (taken : LifeStep sizeBits true n event before after) : Spoken after := by
  cases spoken with
  | waiting word waiting => exact waiting_step word waiting control taken
  | failed word failed => exact failed_step word failed taken
  | talking body word talking => exact talking_step word talking control taken
  | ended body word ended => exact ended_step word ended taken

theorem Spoken.conversation {view : View} (spoken : Spoken view) :
    ∃ word, Conversation word ∧ callbacks view.acts <+: word := by
  cases spoken with
  | waiting word => exact ⟨_, .failed, by rw [word]; exact ⟨[.onConnectedFailed], rfl⟩⟩
  | failed word => exact ⟨_, .failed, by rw [word]⟩
  | talking body word talking => exact ⟨_, .left body talking.wellFormed, by rw [word]⟩
  | ended body word ended => exact ⟨_, .closed body ended.wellFormed, by rw [word]⟩

theorem Spoken.constructed {view : View} (spoken : Spoken view)
    (using' : isReading view.task.conn = true ∨ view.task.conn.state = .closing true) :
    view.task.reversed.isSome = true := by
  cases spoken with
  | talking body word talking => exact talking.constructed
  | waiting word waiting =>
    rcases using' with reads | state
    · exact absurd ((isReading_iff _).mp reads).2 (by simp [waiting.unread])
    · exact absurd state waiting.quiet
  | failed word failed =>
    rcases using' with reads | state
    · rcases failed.closing with other | other <;> simp [isReading, other] at reads
    · rcases failed.closing with other | other <;> simp [other] at state
  | ended body word ended =>
    rcases using' with reads | state
    · simp [isReading, ended.closed] at reads
    · simp [ended.closed] at state

end

section
variable {platform : Platform} {config : MainConfig} {info : MainInfo}

theorem reachable_spoken (http : builtin config = true) (reached : Reachable platform config info) :
    ∀ n < info.nodes, Spoken (view info n) := by
  have born : ∀ n id addr, Spoken (newborn (builtin config) n id addr) := by
    intro n id addr
    rw [http]
    exact Spoken.newborn id addr
  have kept : ∀ n event before after, Life n before → Spoken before →
      LifeStep platform.sizeBits (builtin config) n event before after → Spoken after := by
    intro n event before after life spoken taken
    rw [http] at taken
    exact spoken.step life.control taken
  exact reachable_lives born kept reached

/-- Every task has a conversation, and no `on_recv` or `on_close` comes before its reply data. -/
theorem callback_protocol (http : builtin config = true) (reached : Reachable platform config info)
    {n : Nat} (bound : n < info.nodes) :
    (∃ word, Conversation word ∧ callbacks (actsOf info.log n) <+: word) ∧
      (∀ received, enabled info (.readData n received) = true → (info.heap n).reversed.isSome = true) ∧
      (∀ now, enabled info (.closed n now) = true → (info.heap n).conn.state = .closing true →
        (info.heap n).reversed.isSome = true) := by
  have spoken := reachable_spoken http reached n bound
  refine ⟨spoken.conversation, ?_, ?_⟩
  · intro received allowed
    simp only [enabled, Bool.and_eq_true] at allowed
    exact spoken.constructed (Or.inl allowed.1.1.2)
  · intro now _ state
    exact spoken.constructed (Or.inr state)

end

/-- The reply ends before the request is written, so the write is cancelled. -/
def cancelledRun : List Event :=
  [.tick fun _ => some 0, .workInit 0, .workConnect 0 0, .workReturn 0, .afterWork 0,
    .connected 0 0 0 0, .readData 0 (bytes "</html>\r\n\r\n"), .written 0 uvEcanceled, .readRetired 0,
    .closed 0 0]

theorem callback_protocol_cancelled :
    ∃ info, session ⟨64, 32⟩ mainConfig (fun _ => none) cancelledRun = some info ∧
      callbacks (actsOf info.log 0) =
        [.onInit, .onConnectedSuccessful, .onRecv, .onSendError, .onClose] ∧
      ∃ word, Conversation word ∧ callbacks (actsOf info.log 0) <+: word := by
  obtain ⟨info, ran, made, bound⟩ : ∃ info,
      session ⟨64, 32⟩ mainConfig (fun _ => none) cancelledRun = some info ∧
      callbacks (actsOf info.log 0) =
        [.onInit, .onConnectedSuccessful, .onRecv, .onSendError, .onClose] ∧
      0 < info.nodes := ⟨_, rfl, by decide, by decide⟩
  exact ⟨info, ran, made, (callback_protocol (by decide) ⟨_, _, ran⟩ bound).1⟩

end EasyStressTest.Protocol
