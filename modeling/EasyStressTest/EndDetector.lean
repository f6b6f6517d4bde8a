import EasyStressTest.Chunking
import EasyStressTest.Progress

/-!
The end detector of `http_on_recv` over a whole reply. It searches the last 40 bytes only, so
what it finds depends on where the network cuts the reply.
-/

namespace EasyStressTest.EndDetector
open Define HttpTask Options Tasks Libuv Callbacks Loop Execution Lifecycle Simulation Population
open Search Chunking Reachability Progress

/-- Whether `do_close` is called when the chunks are delivered one by one. -/
def deliver (sizeBits : Nat) : HttpData → List (List UInt8) → Bool
  | _, [] => false
  | httpData, chunk :: rest =>
      let (next, closed) := httpData.onRecv sizeBits chunk chunk.length
      closed || deliver sizeBits next rest

/-- The chunks one by one, up to the first `do_close`. -/
def feed (sizeBits : Nat) : HttpData → List (List UInt8) → HttpData × Bool
  | httpData, [] => (httpData, false)
  | httpData, chunk :: rest =>
      let (next, closed) := httpData.onRecv sizeBits chunk chunk.length
      if closed then (next, true) else feed sizeBits next rest

theorem deliver_eq_feed (sizeBits : Nat) (httpData : HttpData) (chunks : List (List UInt8)) :
    deliver sizeBits httpData chunks = (feed sizeBits httpData chunks).2 := by
  induction chunks generalizing httpData with
  | nil => rfl
  | cons chunk rest ih =>
    simp only [deliver, feed]
    split
    next closed => rw [closed, Bool.true_or]
    next unclosed => rw [Bool.eq_false_iff.mpr unclosed, Bool.false_or, ih]

/-- The pattern stands at this position of the first `size` bytes. -/
def ReceivedAt (pattern stream : List UInt8) (size position : Nat) : Prop :=
  OccursAt pattern stream position ∧ position + pattern.length ≤ size

/-- A closing tag in the window that begins at `offset`, and a blank line after it. -/
def TagThenBlank (tag stream : List UInt8) (offset size : Nat) : Prop :=
  ∃ pos blank, offset ≤ pos ∧ pos ≤ blank ∧ ReceivedAt tag stream size pos ∧
    ReceivedAt blankLine stream size blank

/-- The detector fires when exactly the first `size` bytes have arrived. The upper-case tag
counts only when the window has no lower-case one. -/
def EndsAt (sizeBits : Nat) (stream : List UInt8) (size : Nat) : Prop :=
  TagThenBlank htmlEnd stream (searchOffset sizeBits size) size ∨
    (∀ pos, searchOffset sizeBits size ≤ pos → ¬ReceivedAt htmlEnd stream size pos) ∧
      TagThenBlank htmlEndUpper stream (searchOffset sizeBits size) size

theorem htmlEnd_ne_nil : htmlEnd ≠ [] := by decide
theorem htmlEndUpper_ne_nil : htmlEndUpper ≠ [] := by decide
theorem blankLine_ne_nil : blankLine ≠ [] := by decide

/-- A tag in the window whose first occurrence has a blank line after it. -/
theorem find_blank_iff {tag text : List UInt8} {offset pos : Nat} (nonempty : tag ≠ [])
    (found : find tag text offset = some pos) :
    (find blankLine text pos).isSome = true ↔
      ∃ pos blank, offset ≤ pos ∧ pos ≤ blank ∧ OccursAt tag text pos ∧ OccursAt blankLine text blank := by
  obtain ⟨after, occurs, first⟩ := (find_eq_some nonempty).mp found
  rw [find_isSome blankLine_ne_nil]
  apply Iff.intro
  · rintro ⟨blank, beyond, ends⟩
    exact ⟨pos, blank, after, beyond, occurs, ends⟩
  · rintro ⟨other, blank, within, beyond, there, ends⟩
    have earliest : pos ≤ other := by
      by_contra before
      exact first other within (by omega) there
    exact ⟨blank, by omega, ends⟩

theorem endFound_iff (text : List UInt8) (offset : Nat) :
    endFound text offset = true ↔
      (∃ pos blank, offset ≤ pos ∧ pos ≤ blank ∧ OccursAt htmlEnd text pos ∧
        OccursAt blankLine text blank) ∨
      (∀ pos, offset ≤ pos → ¬OccursAt htmlEnd text pos) ∧
        ∃ pos blank, offset ≤ pos ∧ pos ≤ blank ∧ OccursAt htmlEndUpper text pos ∧
          OccursAt blankLine text blank := by
  cases lower : find htmlEnd text offset with
  | some pos =>
    have tag : tagFrom text offset = some pos := by simp [tagFrom, lower]
    have present := (find_eq_some htmlEnd_ne_nil).mp lower
    rw [endFound, tag, ← find_blank_iff htmlEnd_ne_nil lower]
    apply Iff.intro
    · exact Or.inl
    · intro cases'
      rcases cases' with found | ⟨absent, _⟩
      · exact found
      · exact absurd present.2.1 (absent pos present.1)
  | none =>
    have absent := (find_eq_none htmlEnd_ne_nil).mp lower
    have noLower : ¬∃ pos blank, offset ≤ pos ∧ pos ≤ blank ∧ OccursAt htmlEnd text pos ∧
        OccursAt blankLine text blank := by
      rintro ⟨pos, _, within, _, occurs, _⟩
      exact absent pos within occurs
    rw [or_iff_right noLower, and_iff_right absent]
    cases upper : find htmlEndUpper text offset with
    | some pos =>
      have tag : tagFrom text offset = some pos := by simp [tagFrom, lower, upper]
      rw [endFound, tag, ← find_blank_iff htmlEndUpper_ne_nil upper]
    | none =>
      have tag : tagFrom text offset = none := by simp [tagFrom, lower, upper]
      have noUpper := (find_eq_none htmlEndUpper_ne_nil).mp upper
      rw [endFound, tag]
      apply Iff.intro
      · intro impossible
        cases impossible
      · rintro ⟨pos, _, within, _, occurs, _⟩
        exact absurd occurs (noUpper pos within)

theorem tagThenBlank_iff {tag : List UInt8} (nonempty : tag ≠ []) (stream : List UInt8)
    (offset size : Nat) :
    TagThenBlank tag stream offset size ↔
      ∃ pos blank, offset ≤ pos ∧ pos ≤ blank ∧ OccursAt tag (stream.take size) pos ∧
        OccursAt blankLine (stream.take size) blank := by
  simp only [TagThenBlank, ReceivedAt, occursAt_take nonempty, occursAt_take blankLine_ne_nil]

theorem endsAt_iff (sizeBits : Nat) (stream : List UInt8) (size : Nat) :
    EndsAt sizeBits stream size ↔
      endFound (stream.take size) (searchOffset sizeBits size) = true := by
  rw [endFound_iff, EndsAt, tagThenBlank_iff htmlEnd_ne_nil, tagThenBlank_iff htmlEndUpper_ne_nil]
  simp only [ReceivedAt, occursAt_take htmlEnd_ne_nil]

theorem deliver_iff (sizeBits : Nat) (received : List UInt8) (chunks : List (List UInt8)) :
    deliver sizeBits ⟨received, received.length⟩ chunks = true ↔
      ∃ cut ∈ cuts received.length chunks, EndsAt sizeBits (received ++ chunks.flatten) cut := by
  induction chunks generalizing received with
  | nil => simp [deliver, cuts]
  | cons chunk rest ih =>
    have whole : received ++ (chunk :: rest).flatten = (received ++ chunk) ++ rest.flatten := by
      rw [List.flatten_cons, List.append_assoc]
    have length : (received ++ chunk).length = received.length + chunk.length := List.length_append
    have front : ((received ++ chunk) ++ rest.flatten).take (received.length + chunk.length) =
        received ++ chunk := by
      rw [← length, List.take_left]
    have onRecv : HttpData.onRecv sizeBits ⟨received, received.length⟩ chunk chunk.length =
        (⟨received ++ chunk, (received ++ chunk).length⟩,
          endFound (received ++ chunk) (searchOffset sizeBits (received.length + chunk.length : Nat))) := by
      simp [HttpData.onRecv, List.length_append]
    have later := ih (received ++ chunk)
    rw [length] at later
    rw [deliver, onRecv]
    simp only [Bool.or_eq_true, cuts, List.exists_mem_cons_iff, whole]
    rw [endsAt_iff, front, ← later, length]

/-- Below 2 GiB the width of `stl_size_t` makes no difference. -/
theorem endsAt_width {narrow wide size : Nat} (first : 32 ≤ narrow) (second : 32 ≤ wide)
    (small : size < 2 ^ 31 + 40) (stream : List UInt8) :
    EndsAt narrow stream size ↔ EndsAt wide stream size := by
  rw [endsAt_iff, endsAt_iff, searchOffset_eq first small, searchOffset_eq second small]

/-! The chunks as events of the loop. -/

/-- The chunks come to `read_cb` one by one, as long as the task is read from. -/
def receive (platform : Platform) (config : MainConfig) (p : Nat) :
    MainInfo → List (List UInt8) → Option MainInfo
  | info, [] => some info
  | info, chunk :: rest =>
      (step platform config info (.readData p chunk)).bind fun next =>
        if isReading (next.heap p).conn then receive platform config p next rest else some next

/-- A task that is read from, and to which nothing was delivered. -/
structure Listening (platform : Platform) (config : MainConfig) (info : MainInfo) (p : Nat) : Prop where
  reached : Reachable platform config info
  bound : p < info.nodes
  reads : isReading (info.heap p).conn = true
  fresh : (info.heap p).reversed = some .fresh
  unclosed : (info.heap p).deleteImmediately = false

section
variable {sizeBits : Nat} {p : Nat} {before after : View} {received : List UInt8} {reply : HttpData}

theorem readData_life (constructed : before.task.reversed = some reply)
    (taken : LifeStep sizeBits true p (.readData p received) before after) :
    after.task =
      if (reply.onRecv sizeBits received received.length).2 then
        { closeOpen (withReply before.task (reply.onRecv sizeBits received received.length).1) true with
          deleteImmediately := true }
      else withReply before.task (reply.onRecv sizeBits received received.length).1 := by
  cases taken with
  | other apart => exact absurd rfl apart
  | readMore reads http same onRecv =>
    rw [constructed, Option.some.injEq] at same
    subst same
    simp [onRecv]
  | readEnd reads http same onRecv =>
    rw [constructed, Option.some.injEq] at same
    subst same
    simp [onRecv]
  | readBare reads script => cases script

end

section
variable {platform : Platform} {config : MainConfig} {info : MainInfo} {p : Nat}

/-- The task keeps what was fed to it, and it is not read from any more exactly when `do_close` was called
for it. -/
theorem receive_feed (http : builtin config = true) {chunks : List (List UInt8)} {reply : HttpData}
    (good : Good info) (bound : p < info.nodes) (reads : isReading (info.heap p).conn = true)
    (constructed : (info.heap p).reversed = some reply) (unclosed : (info.heap p).deleteImmediately = false)
    (sized : ∀ chunk ∈ chunks, 0 < chunk.length ∧ chunk.length ≤ readBufSize) :
    ∃ last, receive platform config p info chunks = some last ∧
      (last.heap p).reversed = some (feed platform.sizeBits reply chunks).1 ∧
      (last.heap p).deleteImmediately = (feed platform.sizeBits reply chunks).2 ∧
      isReading (last.heap p).conn = !(feed platform.sizeBits reply chunks).2 := by
  induction chunks generalizing info reply with
  | nil => exact ⟨info, rfl, constructed, unclosed, reads⟩
  | cons chunk rest ih =>
    have size := sized chunk List.mem_cons_self
    have allowed : enabled info (.readData p chunk) = true := by
      simp [enabled, bound, reads, size.1, allocCb, size.2]
    obtain ⟨next, result⟩ := target_returns platform config rfl
      (good.lives p bound).routed (fun _ _ => by rw [constructed]; rfl) allowed
    have taken : step platform config info (.readData p chunk) = some next :=
      step_eq_some.mpr ⟨allowed, result⟩
    have advance := step_advance good taken
    have lived := advance.lived p bound
    rw [http] at lived
    have replied : (view info p).task.reversed = some reply := constructed
    have heap : next.heap p = _ := readData_life replied lived
    simp only [receive, taken, Option.bind_some, feed]
    cases closed : (reply.onRecv platform.sizeBits chunk chunk.length).2 with
    | true =>
      rw [if_pos closed] at heap
      have unread : isReading (next.heap p).conn = false := by simp [heap, isReading]
      rw [unread, if_pos rfl, if_neg Bool.false_ne_true]
      refine ⟨next, rfl, ?_, ?_, unread⟩
      · rw [heap]
        rfl
      · rw [heap]
    | false =>
      rw [closed, if_neg Bool.false_ne_true] at heap
      have reads' : isReading (next.heap p).conn = true := by
        rw [heap]
        exact reads
      rw [reads', if_pos rfl, if_neg Bool.false_ne_true]
      apply ih advance.good (Nat.lt_of_lt_of_le bound advance.grown) reads'
      · rw [heap]
        rfl
      · rw [heap]
        exact unclosed
      · exact fun other member => sized other (List.mem_cons_of_mem _ member)

theorem Listening.receives {chunks : List (List UInt8)} (listening : Listening platform config info p)
    (http : builtin config = true) (sized : ∀ chunk ∈ chunks, 0 < chunk.length ∧ chunk.length ≤ readBufSize) :
    ∃ last, receive platform config p info chunks = some last ∧
      (last.heap p).reversed = some (feed platform.sizeBits .fresh chunks).1 ∧
      (last.heap p).deleteImmediately = (feed platform.sizeBits .fresh chunks).2 := by
  obtain ⟨last, received, reply, closed, _⟩ := receive_feed http (reachable_good listening.reached) listening.bound
    listening.reads listening.fresh listening.unclosed sized
  exact ⟨last, received, reply, closed⟩

end

/-- Any two splits of a reply agree on whether the task is closed, exactly when the detector
fires at no position of it, at its end, or at 1024 positions in a row; and whether it is closed is what the
loop makes of such a split for a task of any reachable state. -/
theorem chunk_independent_iff (sizeBits : Nat) (stream : List UInt8) :
    ((∀ first second, IsSplit readBufSize stream first → IsSplit readBufSize stream second →
      deliver sizeBits .fresh first = deliver sizeBits .fresh second) ↔
      ((∃ size, 0 < size ∧ size ≤ stream.length ∧ EndsAt sizeBits stream size) →
        EndsAt sizeBits stream stream.length ∨ ∃ low, low + readBufSize ≤ stream.length ∧
          ∀ size, low < size → size ≤ low + readBufSize → EndsAt sizeBits stream size)) ∧
      ∀ longBits config info p chunks, builtin config = true → Listening ⟨sizeBits, longBits⟩ config info p →
        IsSplit readBufSize stream chunks →
          ∃ last, receive ⟨sizeBits, longBits⟩ config p info chunks = some last ∧
            (last.heap p).deleteImmediately = deliver sizeBits .fresh chunks := by
  apply And.intro
  · rw [← splits_agree_iff (by decide) stream (EndsAt sizeBits stream)]
    have fires : ∀ chunks, IsSplit readBufSize stream chunks →
        (deliver sizeBits .fresh chunks = true ↔ ∃ cut ∈ cuts 0 chunks, EndsAt sizeBits stream cut) := by
      intro chunks split
      have delivered := deliver_iff sizeBits [] chunks
      rw [List.nil_append, split.joined] at delivered
      exact delivered
    apply Iff.intro
    · intro agree first second firstSplit secondSplit
      rw [← fires first firstSplit, ← fires second secondSplit, agree first second firstSplit secondSplit]
    · intro agree first second firstSplit secondSplit
      apply Bool.eq_iff_iff.mpr
      rw [fires first firstSplit, fires second secondSplit]
      exact agree first second firstSplit secondSplit
  · intro longBits config info p chunks http listening split
    obtain ⟨last, received, _, closed⟩ := listening.receives http split.sized
    exact ⟨last, received, closed.trans (deliver_eq_feed sizeBits .fresh chunks).symm⟩

/-- The end of a page, and then what a keep-alive connection sends next. -/
def pageThenMore : List UInt8 := bytes "</html>\r\n\r\n" ++ List.replicate 30 0x78

theorem requestSent_listening : ∃ info, session ⟨64, 32⟩ mainConfig (fun _ => none) requestSent = some info ∧
    Listening ⟨64, 32⟩ mainConfig info 0 :=
  ⟨_, rfl, ⟨fun _ => none, requestSent, rfl⟩, by decide, by decide, rfl, rfl⟩

/-- The task is closed when the end of the page comes alone, and not when all comes at once. -/
theorem chunk_independent_iff_page :
    ∃ info, session ⟨64, 32⟩ mainConfig (fun _ => none) requestSent = some info ∧
      (∃ last, receive ⟨64, 32⟩ mainConfig 0 info [bytes "</html>\r\n\r\n", List.replicate 30 0x78] = some last ∧
        (last.heap 0).deleteImmediately = true) ∧
      ∃ last, receive ⟨64, 32⟩ mainConfig 0 info [pageThenMore] = some last ∧
        (last.heap 0).deleteImmediately = false := by
  obtain ⟨info, ran, listening⟩ := requestSent_listening
  have receives := (chunk_independent_iff 64 pageThenMore).2 32 mainConfig info 0
  exact ⟨info, ran, receives _ (by decide) listening (by decide), receives _ (by decide) listening (by decide)⟩

theorem chunk_dependent :
    IsSplit readBufSize pageThenMore [bytes "</html>\r\n\r\n", List.replicate 30 0x78] ∧
      IsSplit readBufSize pageThenMore [pageThenMore] ∧
      ∀ sizeBits ∈ [32, 64],
        deliver sizeBits .fresh [bytes "</html>\r\n\r\n", List.replicate 30 0x78] = true ∧
          deliver sizeBits .fresh [pageThenMore] = false := by
  decide

end EasyStressTest.EndDetector
