import EasyStressTest.Population

/-!
`timer_cb` and `tcp_task_post`: how many tasks a tick adds, and what it leaves alone.
-/

namespace EasyStressTest.Posting
open Define HttpTask Options Tasks Libuv Callbacks Loop Execution Lifecycle Simulation Population

/-- What `on_init` returns; a missing entry counts as 0. -/
def onInitReturned (callbacks : TcpTaskCallback) (host : Option UInt32) : Int :=
  match callbacks.onInit with
  | some onInit => (onInit host TcpTask.zero).1
  | none => 0

/-- How many of the first attempts of a tick get a task. -/
def successes (callbacks : TcpTaskCallback) (hosts : Nat → Option UInt32) (attempts : Nat) : Nat :=
  (List.range attempts).countP fun i => 0 ≤ onInitReturned callbacks (hosts i)

/-- New nodes were added at the end, and nothing else changed in the views. -/
structure Posted (http : Bool) (count : Nat) (info next : MainInfo) : Prop where
  good : Good next
  nodes : next.nodes = info.nodes + count
  walked : next.walked = info.walked
  entries : next.tasks.toDeleteTaskList = info.tasks.toDeleteTaskList
  count : next.tasks.count = info.tasks.count + count
  old : ∀ n < info.nodes, view next n = view info n
  born : ∀ n, info.nodes ≤ n → n < next.nodes →
    ∃ addr, view next n = newborn http n (UInt64.ofNat (n + 1)) addr

section
variable {platform : Platform} {config : MainConfig} {info middle next : MainInfo} {http : Bool}

theorem Posted.refl (good : Good info) : Posted http 0 info info where
  good := good
  nodes := rfl
  walked := rfl
  entries := rfl
  count := rfl
  old := fun _ _ => rfl
  born := by
    intro n after before
    omega

theorem Posted.trans {first second : Nat} (one : Posted http first info middle)
    (two : Posted http second middle next) : Posted http (first + second) info next := by
  have firstNodes := one.nodes
  have secondNodes := two.nodes
  have firstCount := one.count
  have secondCount := two.count
  refine ⟨two.good, by omega, two.walked.trans one.walked, two.entries.trans one.entries, by omega,
    ?_, ?_⟩
  · intro n before
    rw [two.old n (by omega)]
    exact one.old n before
  · intro n after before
    by_cases earlier : n < middle.nodes
    · rw [two.old n earlier]
      exact one.born n after earlier
    · exact two.born n (by omega) before

theorem Posted.assert (posted : Posted http 0 info info) (assertion : Assertion) (expr : Bool) :
    Posted http 0 info (info.assert assertion expr) := by
  unfold MainInfo.assert
  split
  · exact posted
  · obtain ⟨good, _⟩ := posted
    exact ⟨⟨good.counter, good.ids, good.keyed, good.entries, good.logged, good.lives⟩, rfl, rfl, rfl,
      rfl, fun _ _ => rfl, fun n after before => absurd before (Nat.not_lt.mpr after)⟩

/-- The state in which `tcp_task_post` leaves a new node. -/
def insertNewborn (http : Bool) (info : MainInfo) (addr : SockaddrIn) : MainInfo where
  tasks := { info.tasks with
    curId := info.tasks.curId + 1
    taskList := info.tasks.taskList.insert (info.tasks.curId + 1) info.nodes }
  heap := fun m => if m = info.nodes then posted info.nodes (info.tasks.curId + 1) addr else info.heap m
  nodes := info.nodes + 1
  walked := info.walked
  log := info.log ++ (newborn http info.nodes (info.tasks.curId + 1) addr).acts.map
    fun act => (info.nodes, act)
  failed := info.failed

theorem tcpTaskPost_negative (info : MainInfo) {callbacks : TcpTaskCallback} {host : Option UInt32}
    (negative : onInitReturned callbacks host < 0) :
    tcpTaskPost callbacks info host = some (info, -1) := by
  cases table : callbacks.onInit with
  | none => simp [onInitReturned, table] at negative
  | some onInit =>
    simp only [onInitReturned, table] at negative
    simp [tcpTaskPost, table, negative]

theorem tcpTaskPost_script (script : builtin config = false) (host : Option UInt32) :
    tcpTaskPost (initCallbacks platform.sizeBits config) info host =
      if info.tasks.curId + 1 ∈ info.tasks.taskList then none
      else some (insertNewborn false info TcpTask.zero.addr, 0) := by
  by_cases taken : info.tasks.curId + 1 ∈ info.tasks.taskList
  · rw [if_pos taken, initCallbacks_script _ script]
    simp [tcpTaskPost, noCallbacks, MainInfo.add, taken]
  · rw [if_neg taken, initCallbacks_script _ script]
    simp [tcpTaskPost, noCallbacks, MainInfo.add, taken, insertNewborn, MainInfo.setTask, MainInfo.act,
      MainInfo.assert, uvQueueWork, newborn, call, posted, TcpTask.zero]
    funext m
    split <;> rfl

theorem tcpTaskPost_http (http : builtin config = true) (address : UInt32) :
    tcpTaskPost (initCallbacks platform.sizeBits config) info (some address) =
      if info.tasks.curId + 1 ∈ info.tasks.taskList then none
      else some (insertNewborn true info ⟨2, 0x5000, address⟩, 0) := by
  by_cases taken : info.tasks.curId + 1 ∈ info.tasks.taskList
  · rw [if_pos taken, initCallbacks_http _ http]
    simp [tcpTaskPost, httpCallbacks, httpOnInit, MainInfo.add, taken]
  · rw [if_neg taken, initCallbacks_http _ http]
    simp [tcpTaskPost, httpCallbacks, httpOnInit, MainInfo.add, taken, insertNewborn,
      MainInfo.setTask, MainInfo.act, MainInfo.assert, uvQueueWork, newborn, call, posted, TcpTask.zero]
    funext m
    split <;> rfl

/-- An attempt whose `on_init` succeeds inserts a node, or fails at the NULL of `Add`. -/
theorem tcpTaskPost_succeeds (info : MainInfo) {host : Option UInt32}
    (succeeded : 0 ≤ onInitReturned (initCallbacks platform.sizeBits config) host) :
    ∃ addr, tcpTaskPost (initCallbacks platform.sizeBits config) info host =
      if info.tasks.curId + 1 ∈ info.tasks.taskList then none
      else some (insertNewborn (builtin config) info addr, 0) := by
  cases table : builtin config with
  | false => exact ⟨_, tcpTaskPost_script table host⟩
  | true =>
    cases host with
    | none =>
      rw [initCallbacks_http _ table] at succeeded
      simp [onInitReturned, httpCallbacks, httpOnInit] at succeeded
    | some address => exact ⟨_, tcpTaskPost_http table address⟩

theorem insertNewborn_old (addr : SockaddrIn)
    (fresh : info.tasks.curId + 1 ∉ info.tasks.taskList) {n : Nat} (before : n < info.nodes) :
    view (insertNewborn http info addr) n = view info n := by
  have other : n ≠ info.nodes := by omega
  have heap : (insertNewborn http info addr).heap n = info.heap n := by
    simp only [insertNewborn, if_neg other]
  have absent : info.tasks.taskList.lookup (info.tasks.curId + 1) = none :=
    AList.lookup_eq_none.mpr fresh
  have found : ((info.tasks.taskList.insert (info.tasks.curId + 1) info.nodes).lookup
      (info.heap n).id == some n) = (info.tasks.taskList.lookup (info.heap n).id == some n) := by
    by_cases same : (info.heap n).id = info.tasks.curId + 1
    · rw [same, AList.lookup_insert, absent]
      simp [Ne.symm other]
    · rw [AList.lookup_insert_ne same]
  have acts : actsOf (insertNewborn http info addr).log n = actsOf info.log n := by
    simp [insertNewborn, actsOf, List.filterMap_append, List.filterMap_map, Ne.symm other]
  simp only [view, heap, acts]
  simp only [insertNewborn, CTasks.find, found]

theorem insertNewborn_new (http : Bool) (good : Good info) (unwalked : info.walked = false)
    (addr : SockaddrIn) :
    view (insertNewborn http info addr) info.nodes =
      newborn http info.nodes (UInt64.ofNat (info.nodes + 1)) addr := by
  have id : info.tasks.curId + 1 = UInt64.ofNat (info.nodes + 1) := by
    rw [good.counter, UInt64.ofNat_add]
    rfl
  have unmarked : marksOf info.tasks.toDeleteTaskList info.nodes = 0 := by
    apply List.countP_eq_zero.mpr
    intro node member
    have bound := good.entries node member
    simp only [decide_eq_true_eq]
    omega
  have silent : actsOf info.log info.nodes = [] := by
    apply List.filterMap_eq_nil_iff.mpr
    intro entry member
    have bound := good.logged entry member
    rw [if_neg (by omega)]
  have heap : (insertNewborn http info addr).heap info.nodes =
      posted info.nodes (info.tasks.curId + 1) addr := by
    simp only [insertNewborn, if_true]
  have listed : (insertNewborn http info addr).tasks.find (info.tasks.curId + 1) = some info.nodes :=
    AList.lookup_insert info.tasks.taskList
  have acts : actsOf (insertNewborn http info addr).log info.nodes =
      (newborn http info.nodes (info.tasks.curId + 1) addr).acts := by
    rw [insertNewborn, actsOf, List.filterMap_append, List.filterMap_map]
    change actsOf info.log info.nodes ++ _ = _
    rw [silent]
    simp
  rw [← id]
  simp only [view, heap, acts]
  simp only [posted, listed]
  simp only [insertNewborn, newborn, unmarked, unwalked, posted, beq_self_eq_true]

theorem insertNewborn_posted (good : Good info) (unwalked : info.walked = false) (addr : SockaddrIn)
    (fresh : info.tasks.curId + 1 ∉ info.tasks.taskList) :
    Posted http 1 info (insertNewborn http info addr) := by
  have id : info.tasks.curId + 1 = UInt64.ofNat (info.nodes + 1) := by
    rw [good.counter, UInt64.ofNat_add]
    rfl
  have new := insertNewborn_new http good unwalked addr
  have old : ∀ n < info.nodes, view (insertNewborn http info addr) n = view info n :=
    fun n before => insertNewborn_old addr fresh before
  have heapOld : ∀ n < info.nodes, (insertNewborn http info addr).heap n = info.heap n :=
    fun n before => congrArg View.task (old n before)
  have heapNew : (insertNewborn http info addr).heap info.nodes =
      posted info.nodes (UInt64.ofNat (info.nodes + 1)) addr := congrArg View.task new
  have entries : (info.tasks.taskList.insert (info.tasks.curId + 1) info.nodes).entries.length =
      info.tasks.taskList.entries.length + 1 := by
    rw [AList.insert_of_notMem fresh, List.length_cons]
  refine ⟨?_, rfl, rfl, rfl, entries, old, ?_⟩
  · exact
      { counter := id
        ids := by
          intro n before
          by_cases last : n = info.nodes
          · rw [last, heapNew]
            rfl
          · have earlier : n < info.nodes := by
              have bound : n < info.nodes + 1 := before
              omega
            rw [heapOld n earlier]
            exact good.ids n earlier
        keyed := by
          intro key n found
          have lookup : (info.tasks.taskList.insert (info.tasks.curId + 1) info.nodes).lookup key =
              some n := found
          by_cases same : key = info.tasks.curId + 1
          · rw [same, AList.lookup_insert, Option.some.injEq] at lookup
            subst lookup
            rw [heapNew, same, id]
            exact ⟨Nat.lt_succ_self _, rfl⟩
          · rw [AList.lookup_insert_ne same] at lookup
            obtain ⟨bound, key⟩ := good.keyed key n lookup
            rw [heapOld n bound]
            exact ⟨Nat.lt_succ_of_lt bound, key⟩
        entries := fun node member => Nat.lt_succ_of_lt (good.entries node member)
        logged := by
          intro entry member
          rcases List.mem_append.mp member with past | fresh
          · exact Nat.lt_succ_of_lt (good.logged entry past)
          · obtain ⟨act, _, same⟩ := List.mem_map.mp fresh
            rw [← same]
            exact Nat.lt_succ_self _
        lives := by
          intro n before
          by_cases last : n = info.nodes
          · rw [last, new]
            exact Life.newborn _ addr
          · have earlier : n < info.nodes := by
              have bound : n < info.nodes + 1 := before
              omega
            rw [old n earlier]
            exact good.lives n earlier }
  · intro n after before
    have bound : n < info.nodes + 1 := before
    have last : n = info.nodes := by omega
    exact ⟨addr, by rw [last, new]⟩

/-- The first `count` turns of the loop of `timer_cb`. -/
def postFirst (callbacks : TcpTaskCallback) (hosts : Nat → Option UInt32) (info : MainInfo)
    (count : Nat) : Option MainInfo :=
  (List.range count).foldlM (fun info i => do
    let (info, r) ← tcpTaskPost callbacks info (hosts i)
    some (info.assert .timerPosted (r ≥ 0))) info

theorem postFirst_succ (callbacks : TcpTaskCallback) (hosts : Nat → Option UInt32) (info : MainInfo)
    (count : Nat) : postFirst callbacks hosts info (count + 1) =
      (postFirst callbacks hosts info count).bind fun middle =>
        (tcpTaskPost callbacks middle (hosts count)).map fun result =>
          result.1.assert .timerPosted (result.2 ≥ 0) := by
  rw [postFirst, List.range_succ, List.foldlM_append]
  simp only [List.foldlM_cons, List.foldlM_nil, Option.bind_eq_bind, Option.pure_def]
  congr 1
  funext middle
  cases tcpTaskPost callbacks middle (hosts count) <;> rfl

theorem successes_succ (callbacks : TcpTaskCallback) (hosts : Nat → Option UInt32) (count : Nat) :
    successes callbacks hosts (count + 1) = successes callbacks hosts count +
      if 0 ≤ onInitReturned callbacks (hosts count) then 1 else 0 := by
  rw [successes, List.range_succ, List.countP_append, List.countP_singleton]
  simp only [successes, decide_eq_true_eq]

theorem successes_le (callbacks : TcpTaskCallback) (hosts : Nat → Option UInt32) (attempts : Nat) :
    successes callbacks hosts attempts ≤ attempts := by
  have bound := List.countP_le_length (p := fun i =>
    decide (0 ≤ onInitReturned callbacks (hosts i))) (l := List.range attempts)
  rw [List.length_range] at bound
  exact bound

theorem tcpTaskPost_posted {host : Option UInt32} {r : Int} (good : Good info)
    (unwalked : info.walked = false)
    (posts : tcpTaskPost (initCallbacks platform.sizeBits config) info host = some (next, r)) :
    Posted (builtin config)
      (if 0 ≤ onInitReturned (initCallbacks platform.sizeBits config) host then 1 else 0) info next := by
  by_cases succeeded : 0 ≤ onInitReturned (initCallbacks platform.sizeBits config) host
  · obtain ⟨addr, result⟩ := tcpTaskPost_succeeds info succeeded
    rw [posts] at result
    by_cases taken : info.tasks.curId + 1 ∈ info.tasks.taskList
    · rw [if_pos taken] at result
      cases result
    · rw [if_neg taken, Option.some.injEq, Prod.mk.injEq] at result
      rw [if_pos succeeded, result.1]
      exact insertNewborn_posted good unwalked addr taken
  · have result := tcpTaskPost_negative info (Int.not_le.mp succeeded)
    rw [posts, Option.some.injEq, Prod.mk.injEq] at result
    rw [if_neg succeeded, result.1]
    exact Posted.refl good

theorem postFirst_posted {hosts : Nat → Option UInt32} {count : Nat} (good : Good info)
    (unwalked : info.walked = false)
    (posts : postFirst (initCallbacks platform.sizeBits config) hosts info count = some next) :
    Posted (builtin config)
      (successes (initCallbacks platform.sizeBits config) hosts count) info next := by
  induction count generalizing next with
  | zero =>
    cases posts
    exact Posted.refl good
  | succ count ih =>
    rw [postFirst_succ] at posts
    obtain ⟨middle, before, last⟩ := Option.bind_eq_some_iff.mp posts
    obtain ⟨⟨result, r⟩, attempt, same⟩ := Option.map_eq_some_iff.mp last
    have first := ih before
    have second := tcpTaskPost_posted first.good (first.walked.trans unwalked) attempt
    rw [successes_succ, ← same]
    exact (first.trans second).trans (Posted.assert (Posted.refl second.good) .timerPosted (r ≥ 0))

/-- A key is handed out a second time only when the counter has wrapped around. -/
theorem good_fresh (good : Good info) (few : info.nodes + 1 < 2 ^ 64) :
    info.tasks.curId + 1 ∉ info.tasks.taskList := by
  intro taken
  obtain ⟨n, found⟩ := Option.isSome_iff_exists.mp (AList.lookup_isSome.mpr taken)
  obtain ⟨bound, key⟩ := good.keyed _ n found
  have next : info.tasks.curId + 1 = UInt64.ofNat (info.nodes + 1) := by
    rw [good.counter, UInt64.ofNat_add]
    rfl
  rw [good.ids n bound, next] at key
  have values := congrArg UInt64.toNat key
  have size : UInt64.size = 2 ^ 64 := rfl
  rw [UInt64.toNat_ofNat_of_lt' (by omega), UInt64.toNat_ofNat_of_lt' (by omega)] at values
  omega

theorem tcpTaskPost_returns (platform : Platform) (config : MainConfig) (host : Option UInt32)
    (good : Good info) (few : info.nodes + 1 < 2 ^ 64) :
    ∃ result, tcpTaskPost (initCallbacks platform.sizeBits config) info host = some result := by
  by_cases succeeded : 0 ≤ onInitReturned (initCallbacks platform.sizeBits config) host
  · obtain ⟨addr, result⟩ := tcpTaskPost_succeeds info succeeded
    rw [if_neg (good_fresh good few)] at result
    exact ⟨_, result⟩
  · exact ⟨_, tcpTaskPost_negative info (Int.not_le.mp succeeded)⟩

theorem postFirst_returns (platform : Platform) (config : MainConfig) (hosts : Nat → Option UInt32)
    {count : Nat} (good : Good info) (unwalked : info.walked = false)
    (few : info.nodes + count < 2 ^ 64) :
    ∃ result, postFirst (initCallbacks platform.sizeBits config) hosts info count = some result := by
  induction count with
  | zero => exact ⟨info, rfl⟩
  | succ count ih =>
    obtain ⟨middle, before⟩ := ih (by omega)
    have first := postFirst_posted good unwalked before
    have grown := first.nodes
    have atMost := successes_le (initCallbacks platform.sizeBits config) hosts count
    obtain ⟨result, attempt⟩ := tcpTaskPost_returns platform config (hosts count) first.good (by omega)
    exact ⟨_, by rw [postFirst_succ, before, Option.bind_some, attempt, Option.map_some]⟩

/-- The id of the i-th task that a tick adds is not taken. -/
def Unused (info : MainInfo) (i : Nat) : Prop :=
  info.tasks.curId + UInt64.ofNat (i + 1) ∉ info.tasks.taskList

instance (info : MainInfo) (i : Nat) : Decidable (Unused info i) := inferInstanceAs (Decidable (_ ∉ _))

/-- The first `count` ids after `cur_id` were unused and have been handed out. -/
structure HandedOut (count : Nat) (info next : MainInfo) : Prop where
  unused : ∀ i < count, Unused info i
  counter : next.tasks.curId = info.tasks.curId + UInt64.ofNat count
  keys : ∀ key, key ∈ next.tasks.taskList ↔
    key ∈ info.tasks.taskList ∨ ∃ i < count, key = info.tasks.curId + UInt64.ofNat (i + 1)

theorem later_id (start : UInt64) {i count : Nat} (earlier : i < count) (small : count + 1 < 2 ^ 64) :
    start + UInt64.ofNat (count + 1) ≠ start + UInt64.ofNat (i + 1) := by
  intro same
  have values := congrArg UInt64.toNat ((UInt64.add_right_inj start).mp same)
  have size : UInt64.size = 2 ^ 64 := rfl
  rw [UInt64.toNat_ofNat_of_lt' (by omega), UInt64.toNat_ofNat_of_lt' (by omega)] at values
  omega

theorem handedOut_succ (http : Bool) {count : Nat} (handed : HandedOut count info middle)
    (small : count + 1 < 2 ^ 64) :
    (middle.tasks.curId + 1 ∈ middle.tasks.taskList ↔ ¬Unused info count) ∧
      (Unused info count → ∀ addr, HandedOut (count + 1) info (insertNewborn http middle addr)) := by
  have id : middle.tasks.curId + 1 = info.tasks.curId + UInt64.ofNat (count + 1) := by
    rw [handed.counter, UInt64.add_assoc, UInt64.ofNat_add]
    rfl
  apply And.intro
  · rw [handed.keys, id, Unused, not_not]
    apply or_iff_left
    rintro ⟨i, earlier, same⟩
    exact later_id _ earlier small same
  · intro unused addr
    refine ⟨?_, id, ?_⟩
    · intro i before
      by_cases last : i = count
      · rw [last]
        exact unused
      · exact handed.unused i (by omega)
    · intro key
      have inserted : key ∈ (insertNewborn http middle addr).tasks.taskList ↔
          key = middle.tasks.curId + 1 ∨ key ∈ middle.tasks.taskList := AList.mem_insert _
      rw [inserted, handed.keys, id]
      apply Iff.intro
      · intro cases'
        rcases cases' with last | old | ⟨i, earlier, same⟩
        · exact Or.inr ⟨count, Nat.lt_succ_self count, last⟩
        · exact Or.inl old
        · exact Or.inr ⟨i, by omega, same⟩
      · intro cases'
        rcases cases' with old | ⟨i, before, same⟩
        · exact Or.inr (Or.inl old)
        · by_cases last : i = count
          · rw [last] at same
            exact Or.inl same
          · exact Or.inr (Or.inr ⟨i, by omega, same⟩)

/-- When every `on_init` succeeds, the loop fails exactly where an id is taken. -/
theorem postFirst_all (info : MainInfo) {hosts : Nat → Option UInt32} {count : Nat}
    (small : count < 2 ^ 64)
    (succeed : ∀ i < count, 0 ≤ onInitReturned (initCallbacks platform.sizeBits config) (hosts i)) :
    (∃ next, postFirst (initCallbacks platform.sizeBits config) hosts info count = some next ∧
        HandedOut count info next) ∨
      (postFirst (initCallbacks platform.sizeBits config) hosts info count = none ∧
        ∃ i < count, ¬Unused info i) := by
  induction count with
  | zero =>
    left
    refine ⟨info, rfl, fun i absurdity => by omega, ?_, fun key => ?_⟩
    · rw [show UInt64.ofNat 0 = 0 from rfl, UInt64.add_zero]
    · simp
  | succ count ih =>
    rw [postFirst_succ]
    rcases ih (by omega) (fun i before => succeed i (by omega)) with ⟨middle, before, handed⟩ | failed
    · obtain ⟨addr, attempt⟩ := tcpTaskPost_succeeds middle (succeed count (Nat.lt_succ_self count))
      obtain ⟨taken, next⟩ := handedOut_succ (builtin config) handed small
      rw [before, Option.bind_some, attempt]
      by_cases unused : Unused info count
      · left
        have free : middle.tasks.curId + 1 ∉ middle.tasks.taskList := fun member => taken.mp member unused
        rw [if_neg free, Option.map_some]
        exact ⟨_, rfl, next unused addr⟩
      · right
        rw [if_pos (taken.mpr unused)]
        exact ⟨rfl, count, Nat.lt_succ_self count, unused⟩
    · right
      obtain ⟨none, i, earlier, taken⟩ := failed
      rw [none]
      exact ⟨rfl, i, by omega, taken⟩

theorem postFirst_all_iff (info : MainInfo) {hosts : Nat → Option UInt32} {count : Nat}
    (small : count < 2 ^ 64)
    (succeed : ∀ i < count, 0 ≤ onInitReturned (initCallbacks platform.sizeBits config) (hosts i)) :
    (∃ next, postFirst (initCallbacks platform.sizeBits config) hosts info count = some next) ↔
      ∀ i < count, Unused info i := by
  rcases postFirst_all info small succeed with ⟨next, returns, handed⟩ | ⟨none, i, before, taken⟩
  · exact iff_of_true ⟨next, returns⟩ handed.unused
  · apply iff_of_false
    · rintro ⟨next, returns⟩
      rw [none] at returns
      cases returns
    · intro unused
      exact taken (unused i before)

theorem successes_all {callbacks : TcpTaskCallback} {hosts : Nat → Option UInt32} {attempts : Nat}
    (succeed : ∀ i < attempts, 0 ≤ onInitReturned callbacks (hosts i)) :
    successes callbacks hosts attempts = attempts := by
  have all : (List.range attempts).countP (fun i => decide (0 ≤ onInitReturned callbacks (hosts i))) =
      (List.range attempts).length := by
    apply List.countP_eq_length.mpr
    intro i member
    exact decide_eq_true (succeed i (List.mem_range.mp member))
  rw [List.length_range] at all
  exact all

theorem timerCb_eq (hosts : Nat → Option UInt32) (callbacks : TcpTaskCallback) :
    timerCb config callbacks info hosts =
      if info.tasks.count < config.taskMinRunning.toNat then
        postFirst callbacks hosts info config.taskAddOnce.toNat
      else some info := rfl

/-- How many tasks a tick adds. -/
def tickAdds (platform : Platform) (config : MainConfig) (info : MainInfo)
    (hosts : Nat → Option UInt32) : Nat :=
  if info.tasks.count < config.taskMinRunning.toNat then
    successes (initCallbacks platform.sizeBits config) hosts config.taskAddOnce.toNat
  else 0

theorem timerCb_posted {hosts : Nat → Option UInt32} (good : Good info)
    (unwalked : info.walked = false)
    (ticks : timerCb config (initCallbacks platform.sizeBits config) info hosts = some next) :
    Posted (builtin config) (tickAdds platform config info hosts) info next := by
  rw [timerCb_eq] at ticks
  by_cases low : info.tasks.count < config.taskMinRunning.toNat
  · rw [if_pos low] at ticks
    rw [tickAdds, if_pos low]
    exact postFirst_posted good unwalked ticks
  · rw [if_neg low, Option.some.injEq] at ticks
    rw [tickAdds, if_neg low, ← ticks]
    exact Posted.refl good

theorem tick_advance {hosts : Nat → Option UInt32} (good : Good info) (unwalked : info.walked = false)
    (taken : exec platform config info (.tick hosts) = some next) :
    Advance platform config (.tick hosts) info next := by
  have posted := timerCb_posted good unwalked taken
  refine ⟨by rw [posted.nodes]; omega, ?_, posted.born, posted.good⟩
  intro n before
  rw [posted.old n before]
  exact LifeStep.other (by simp [target]) (by simp)

end

end EasyStressTest.Posting
