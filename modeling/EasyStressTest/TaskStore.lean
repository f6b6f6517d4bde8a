import EasyStressTest.Reachability

/-!
The store over whole runs: `task_list`, `to_delete_task_list` and `cur_id` agree with each other
and with the history of what `Add` handed out and what the sweeps erased.
-/

namespace EasyStressTest.TaskStore
open Define Options Tasks Libuv Callbacks Loop Lifecycle Population Posting Reachability Sweep

def addedId : Act → Option UInt64
  | .added id => some id
  | _ => none

/-- The ids that `Add` handed out, in order. -/
def handedOut (info : MainInfo) : List UInt64 := (info.log.map Prod.snd).filterMap addedId

/-- How often a sweep erased this id. -/
def erasures (info : MainInfo) (id : UInt64) : Nat := (info.log.map Prod.snd).count (.erased id)

/-! Every id in the history is that of the task it stands with. -/

structure Named (view : View) : Prop where
  added : view.acts.filterMap addedId = [view.task.id]
  erased : ∀ id, Act.erased id ∈ view.acts → id = view.task.id

section
variable {sizeBits : Nat} {builtin : Bool} {n : Nat} {event : Event} {before after : View}

@[simp] theorem addedId_call (name : Callback) : (call builtin name).filterMap addedId = [] := by
  cases builtin <;> rfl

@[simp] theorem erased_call (id : UInt64) (name : Callback) :
    Act.erased id ∉ call builtin name := by
  cases builtin <;> simp [call]

theorem Named.newborn (id : UInt64) (addr : SockaddrIn) : Named (newborn builtin n id addr) where
  added := by simp [Lifecycle.newborn, addedId, posted]
  erased := by simp [Lifecycle.newborn]

theorem Named.step (named : Named before) (taken : LifeStep sizeBits builtin n event before after) :
    Named after := by
  obtain ⟨added, erased⟩ := named
  cases taken with
  | erase timeDeleted marked listed ready =>
    refine ⟨by simpa [addedId, List.filterMap_cons] using added, ?_⟩
    intro id member
    rcases List.mem_append.mp member with past | last
    · exact erased id past
    · exact Act.erased.inj (List.mem_singleton.mp last)
  | _ => exact ⟨by simpa [addedId, List.filterMap_cons] using added, by simpa using erased⟩

end

/-! From the history of one task to the history of the program. -/

theorem mem_actsOf {log : List (Nat × Act)} {n : Nat} {act : Act} :
    act ∈ actsOf log n ↔ (n, act) ∈ log := by
  simp only [actsOf, List.mem_filterMap]
  apply Iff.intro
  · rintro ⟨entry, member, same⟩
    split at same
    · next own =>
      rw [← own, ← Option.some.inj same]
      exact member
    · cases same
  · intro member
    exact ⟨(n, act), member, by simp⟩

/-- Acts that only one task performs are counted in its own history. -/
theorem countP_log {log : List (Nat × Act)} {n : Nat} {test : Act → Bool}
    (only : ∀ entry ∈ log, test entry.2 = true → entry.1 = n) :
    (log.map Prod.snd).countP test = (actsOf log n).countP test := by
  induction log with
  | nil => rfl
  | cons entry rest ih =>
    have tail := ih (fun other member => only other (List.mem_cons_of_mem _ member))
    have head := only entry List.mem_cons_self
    by_cases own : entry.1 = n
    · simp only [List.map_cons, List.countP_cons, tail, actsOf, List.filterMap_cons, if_pos own]
    · have silent : ¬test entry.2 = true := fun performs => own (head performs)
      simp only [List.map_cons, List.countP_cons, if_neg silent, tail, actsOf, List.filterMap_cons,
        if_neg own, Nat.add_zero]

theorem count_addedId (acts : List Act) (id : UInt64) :
    (acts.filterMap addedId).count id = acts.countP (· == .added id) := by
  induction acts with
  | nil => rfl
  | cons act rest ih =>
    cases act <;> simp [List.filterMap_cons, addedId, List.count_cons, List.countP_cons, ih]

section
variable {platform : Platform} {config : MainConfig} {info : MainInfo}

theorem reachable_named (reached : Reachable platform config info) :
    ∀ n < info.nodes, Named (view info n) :=
  reachable_lives (fun _ id addr => Named.newborn id addr)
    (fun _ _ _ _ _ named taken => named.step taken) reached

/-- Ids are not reused before the counter wraps around. -/
theorem ids_injective (good : Good info) (few : info.nodes < 2 ^ 64) {n m : Nat}
    (left : n < info.nodes) (right : m < info.nodes) (same : (info.heap n).id = (info.heap m).id) :
    n = m := by
  rw [good.ids n left, good.ids m right] at same
  have values := congrArg UInt64.toNat same
  have size : UInt64.size = 2 ^ 64 := rfl
  rw [UInt64.toNat_ofNat_of_lt' (by omega), UInt64.toNat_ofNat_of_lt' (by omega)] at values
  omega

/-- Every id in the history belongs to exactly one node. -/
theorem owner (good : Good info) (named : ∀ n < info.nodes, Named (view info n))
    (few : info.nodes < 2 ^ 64) {n : Nat} (bound : n < info.nodes) {entry : Nat × Act}
    (member : entry ∈ info.log)
    (about : entry.2 = .added (info.heap n).id ∨ entry.2 = .erased (info.heap n).id) :
    entry.1 = n := by
  have within := good.logged entry member
  have acts : entry.2 ∈ (view info entry.1).acts := mem_actsOf.mpr member
  have own := named entry.1 within
  rcases about with added | erased
  · rw [added] at acts
    have handed : (info.heap n).id ∈ (view info entry.1).acts.filterMap addedId :=
      List.mem_filterMap.mpr ⟨_, acts, rfl⟩
    rw [own.added] at handed
    exact (ids_injective good few bound within (List.mem_singleton.mp handed)).symm
  · rw [erased] at acts
    exact (ids_injective good few bound within (own.erased _ acts)).symm

theorem handedOut_count (good : Good info) (named : ∀ n < info.nodes, Named (view info n))
    (few : info.nodes < 2 ^ 64) {n : Nat} (bound : n < info.nodes) :
    (handedOut info).count (info.heap n).id = 1 := by
  have only : ∀ entry ∈ info.log, (entry.2 == .added (info.heap n).id) = true → entry.1 = n :=
    fun entry member performs => owner good named few bound member (Or.inl (eq_of_beq performs))
  calc
    _ = ((info.log.map Prod.snd).countP fun act => act == .added (info.heap n).id) := by
      rw [handedOut, count_addedId]
    _ = (actsOf info.log n).countP fun act => act == .added (info.heap n).id := countP_log only
    _ = ((view info n).acts.filterMap addedId).count (info.heap n).id := by
      rw [count_addedId]
      rfl
    _ = 1 := by
      rw [(named n bound).added]
      exact List.count_singleton_self

theorem erasures_count (good : Good info) (named : ∀ n < info.nodes, Named (view info n))
    (few : info.nodes < 2 ^ 64) {n : Nat} (bound : n < info.nodes) :
    erasures info (info.heap n).id = if (view info n).listed then 0 else 1 := by
  have only : ∀ entry ∈ info.log, (entry.2 == .erased (info.heap n).id) = true → entry.1 = n :=
    fun entry member performs => owner good named few bound member (Or.inr (eq_of_beq performs))
  have own : ∀ act ∈ actsOf info.log n, (act == .erased (info.heap n).id) = true ↔
      isErased act = true := by
    intro act member
    cases act with
    | erased id =>
      have same : id = (info.heap n).id := (named n bound).erased id member
      simp [isErased, same]
    | _ => simp [isErased]
  rw [erasures, List.count, countP_log only, List.countP_congr own]
  exact (good.lives n bound).placed.erasedOnce

theorem handedOut_owner (good : Good info) (named : ∀ n < info.nodes, Named (view info n))
    {id : UInt64} (handed : id ∈ handedOut info) : ∃ n < info.nodes, (info.heap n).id = id := by
  obtain ⟨act, performed, same⟩ := List.mem_filterMap.mp handed
  obtain ⟨entry, member, about⟩ := List.mem_map.mp performed
  have bound := good.logged entry member
  have acts : act ∈ (view info entry.1).acts := by
    rw [← about]
    exact mem_actsOf.mpr member
  have own : id ∈ (view info entry.1).acts.filterMap addedId := List.mem_filterMap.mpr ⟨act, acts, same⟩
  rw [(named entry.1 bound).added] at own
  exact ⟨entry.1, bound, (List.mem_singleton.mp own).symm⟩

end

/-- What the two containers and the id counter say about each other. -/
structure StoreInvariant (info : MainInfo) : Prop where
  keys : ∀ key n, info.tasks.find key = some n →
    (info.heap n).id = key ∧ key ≤ info.tasks.curId
  inserts : info.nodes + 1 < 2 ^ 64 → ∀ task, (info.add task).2 ≠ none
  unused : info.nodes + 1 < 2 ^ 64 → info.tasks.curId + 1 ∉ handedOut info
  distinctIds : (handedOut info).Nodup
  entries : ∀ node ∈ info.tasks.toDeleteTaskList,
    info.tasks.find (info.heap node.ptask).id = some node.ptask
  distinctEntries : (info.tasks.toDeleteTaskList.map DeleteNode.ptask).Nodup
  accounted : ∀ id ∈ handedOut info,
    (id ∈ info.tasks.taskList ∧ erasures info id = 0) ∨
      (id ∉ info.tasks.taskList ∧ erasures info id = 1)

section
variable {platform : Platform} {config : MainConfig} {info : MainInfo}

theorem listed_mem (good : Good info) (few : info.nodes < 2 ^ 64) {n : Nat} (bound : n < info.nodes) :
    (view info n).listed = true ↔ (info.heap n).id ∈ info.tasks.taskList := by
  rw [listed_iff]
  apply Iff.intro
  · intro found
    exact AList.lookup_isSome.mp (Option.isSome_of_eq_some found)
  · intro member
    obtain ⟨m, found⟩ := Option.isSome_iff_exists.mp (AList.lookup_isSome.mpr member)
    obtain ⟨within, same⟩ := good.keyed _ m found
    have own := ids_injective good few bound within same.symm
    rw [← own] at found
    exact found

theorem key_le (good : Good info) (few : info.nodes < 2 ^ 64) {n : Nat} (bound : n < info.nodes) :
    (info.heap n).id ≤ info.tasks.curId := by
  have size : UInt64.size = 2 ^ 64 := rfl
  rw [good.ids n bound, good.counter, UInt64.le_iff_toNat_le, UInt64.toNat_ofNat_of_lt' (by omega),
    UInt64.toNat_ofNat_of_lt' (by omega)]
  omega

/-- The id that the next `Add` takes was never handed out. -/
theorem next_unused (good : Good info) (named : ∀ n < info.nodes, Named (view info n))
    (more : info.nodes + 1 < 2 ^ 64) : info.tasks.curId + 1 ∉ handedOut info := by
  intro handed
  obtain ⟨n, bound, same⟩ := handedOut_owner good named handed
  have size : UInt64.size = 2 ^ 64 := rfl
  have next : info.tasks.curId + 1 = UInt64.ofNat (info.nodes + 1) := by
    rw [good.counter, UInt64.ofNat_add]
    rfl
  rw [good.ids n bound, next] at same
  have values := congrArg UInt64.toNat same
  rw [UInt64.toNat_ofNat_of_lt' (by omega), UInt64.toNat_ofNat_of_lt' (by omega)] at values
  omega

theorem handedOut_nodup (good : Good info) (named : ∀ n < info.nodes, Named (view info n))
    (few : info.nodes < 2 ^ 64) : (handedOut info).Nodup := by
  apply List.nodup_iff_count_le_one.mpr
  intro id
  by_cases handed : id ∈ handedOut info
  · obtain ⟨n, bound, same⟩ := handedOut_owner good named handed
    rw [← same, handedOut_count good named few bound]
  · rw [List.count_eq_zero_of_not_mem handed]
    exact Nat.zero_le 1

theorem handedOut_accounted (good : Good info) (named : ∀ n < info.nodes, Named (view info n))
    (few : info.nodes < 2 ^ 64) {id : UInt64} (handed : id ∈ handedOut info) :
    (id ∈ info.tasks.taskList ∧ erasures info id = 0) ∨
      (id ∉ info.tasks.taskList ∧ erasures info id = 1) := by
  obtain ⟨n, bound, same⟩ := handedOut_owner good named handed
  have erased := erasures_count good named few bound
  rw [← same]
  by_cases listed : (view info n).listed = true
  · rw [if_pos listed] at erased
    exact Or.inl ⟨(listed_mem good few bound).mp listed, erased⟩
  · rw [if_neg listed] at erased
    exact Or.inr ⟨fun member => listed ((listed_mem good few bound).mpr member), erased⟩

theorem reachable_store (reached : Reachable platform config info) (few : info.nodes < 2 ^ 64) :
    StoreInvariant info := by
  have good := reachable_good reached
  have named := reachable_named reached
  exact
    { keys := by
        intro key n found
        obtain ⟨bound, same⟩ := good.keyed key n found
        rw [← same]
        exact ⟨rfl, key_le good few bound⟩
      inserts := by
        intro more task
        have fresh := good_fresh good more
        simp [MainInfo.add, fresh]
      unused := next_unused good named
      distinctIds := handedOut_nodup good named few
      entries := fun node member => (listed_iff node.ptask).mp (good_entry good member).2
      distinctEntries := marks_nodup good
      accounted := fun _ handed => handedOut_accounted good named few handed }

end

/-- Three tasks: the first was refused and swept, the second was refused since, and the third runs. -/
theorem reachable_store_refused :
    ∃ info,
      session ⟨64, 32⟩ { mainConfig with taskMinRunning := 3, taskAddOnce := 3 } (fun _ => none)
        ((.tick fun _ => some 0) :: refusal 0 0 ++ [.release 2] ++ refusal 2 1) = some info ∧
      handedOut info = [1, 2, 3] ∧ erasures info 1 = 1 ∧ info.tasks.toDeleteTaskList = [⟨1, 2⟩] ∧
      info.tasks.find 3 = some 2 ∧ StoreInvariant info := by
  obtain ⟨info, ran, handed, nodes, erased, waiting, listed⟩ : ∃ info,
      session ⟨64, 32⟩ { mainConfig with taskMinRunning := 3, taskAddOnce := 3 } (fun _ => none)
        ((.tick fun _ => some 0) :: refusal 0 0 ++ [.release 2] ++ refusal 2 1) = some info ∧
      handedOut info = [1, 2, 3] ∧ info.nodes = 3 ∧ erasures info 1 = 1 ∧
      info.tasks.toDeleteTaskList = [⟨1, 2⟩] ∧ info.tasks.find 3 = some 2 :=
    ⟨_, rfl, by decide, rfl, by decide, by decide, by decide⟩
  exact ⟨info, ran, handed, erased, waiting, listed, reachable_store ⟨_, _, ran⟩ (by omega)⟩

end EasyStressTest.TaskStore
