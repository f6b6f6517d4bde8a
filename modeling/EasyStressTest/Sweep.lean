import EasyStressTest.Population

/-!
`DeleteTask_ToBeDeleted` takes the releasable entries at the front of `to_delete_task_list`, at
most `CHECK_DELETE_COUNT` of them, and erases their tasks.
-/

namespace EasyStressTest.Sweep
open Define HttpTask Options Tasks Libuv Callbacks Loop Execution Lifecycle Simulation Population

/-- The entries that one sweep takes: the releasable ones at the front, at most `left`. -/
def leading (info : MainInfo) (t : Int) (left : Nat) : List DeleteNode :=
  (info.tasks.toDeleteTaskList.take left).takeWhile fun node =>
    releasable (info.heap node.ptask) node.timeDeleted t

section
variable {info next middle : MainInfo} {t : Int} {left : Nat} {taken : List DeleteNode}

theorem mem_leading {node : DeleteNode} (member : node ∈ leading info t left) :
    node ∈ info.tasks.toDeleteTaskList ∧
      releasable (info.heap node.ptask) node.timeDeleted t = true := by
  have ready := List.all_eq_true.mp List.all_takeWhile node member
  have among := (List.takeWhile_prefix _).subset member
  exact ⟨List.mem_of_mem_take among, ready⟩

/-! Any list of distinct live tasks. -/

/-- The entries point to distinct tasks of `task_list`, whose keys are the ids of its tasks. -/
structure Pending (info : MainInfo) : Prop where
  live : ∀ node ∈ info.tasks.toDeleteTaskList,
    info.tasks.find (info.heap node.ptask).id = some node.ptask
  distinct : (info.tasks.toDeleteTaskList.map DeleteNode.ptask).Nodup
  keyed : ∀ key n, info.tasks.find key = some n → (info.heap n).id = key

instance (info : MainInfo) : Decidable (Pending info) :=
  decidable_of_iff
    ((∀ node ∈ info.tasks.toDeleteTaskList, info.tasks.find (info.heap node.ptask).id = some node.ptask) ∧
      (info.tasks.toDeleteTaskList.map DeleteNode.ptask).Nodup ∧
      ∀ entry ∈ info.tasks.taskList.entries, (info.heap entry.2).id = entry.1)
    ⟨fun parts => ⟨parts.1, parts.2.1, fun key n found => parts.2.2 ⟨key, n⟩ (AList.mem_lookup_iff.mp found)⟩,
      fun pending => ⟨pending.live, pending.distinct,
        fun entry stored => pending.keyed entry.1 entry.2 (AList.mem_lookup_iff.mpr stored)⟩⟩

/-- The key under which the task of an entry is stored. -/
def keyOf (info : MainInfo) (node : DeleteNode) : UInt64 := (info.heap node.ptask).id

/-- These entries are gone from the front, and their tasks from `task_list`; nothing else has
changed. -/
structure Cleared (taken : List DeleteNode) (info next : MainInfo) : Prop where
  entries : info.tasks.toDeleteTaskList = taken ++ next.tasks.toDeleteTaskList
  find : ∀ key, next.tasks.find key = if key ∈ taken.map (keyOf info) then none else info.tasks.find key
  count : next.tasks.count + taken.length = info.tasks.count
  curId : next.tasks.curId = info.tasks.curId
  heap : next.heap = info.heap
  nodes : next.nodes = info.nodes
  walked : next.walked = info.walked
  log : next.log = info.log ++ taken.map fun node => (node.ptask, .erased (keyOf info node))

/-- The longest run of releasable entries at the front that has at most `limit` entries. -/
structure LongestReleasable (info : MainInfo) (t : Int) (limit : Nat) (taken : List DeleteNode) :
    Prop where
  front : taken <+: info.tasks.toDeleteTaskList
  ready : ∀ node ∈ taken, releasable (info.heap node.ptask) node.timeDeleted t = true
  bounded : taken.length ≤ limit
  longest : ∀ others, others <+: info.tasks.toDeleteTaskList → others.length ≤ limit →
    (∀ node ∈ others, releasable (info.heap node.ptask) node.timeDeleted t = true) →
      others.length ≤ taken.length

theorem takeWhile_longest {α : Type*} {p : α → Bool} {list others : List α} (front : others <+: list)
    (all : ∀ a ∈ others, p a = true) : others.length ≤ (list.takeWhile p).length := by
  obtain ⟨rest, joined⟩ := front
  rw [← joined, List.takeWhile_append_of_pos all, List.length_append]
  exact Nat.le_add_right _ _

theorem leading_longest (info : MainInfo) (t : Int) (limit : Nat) :
    LongestReleasable info t limit (leading info t limit) where
  front := (List.takeWhile_prefix _).trans (List.take_prefix _ _)
  ready := fun _ member => (mem_leading member).2
  bounded := by
    calc
      _ ≤ (info.tasks.toDeleteTaskList.take limit).length := (List.takeWhile_prefix _).length_le
      _ ≤ limit := List.length_take_le _ _
  longest := by
    intro others front short ready
    have inside := front.take limit
    rw [List.take_of_length_le short] at inside
    exact takeWhile_longest inside ready

theorem find_erase (list : AList fun _ : UInt64 => Nat) (id key : UInt64) :
    (list.erase id).lookup key = if key = id then none else list.lookup key := by
  by_cases same : key = id
  · rw [if_pos same, same, AList.lookup_erase]
  · rw [if_neg same, AList.lookup_erase_ne same]

theorem count_erase {list : AList fun _ : UInt64 => Nat} {id : UInt64} {n : Nat}
    (found : list.lookup id = some n) : (list.erase id).entries.length + 1 = list.entries.length := by
  have member : id ∈ list := AList.lookup_isSome.mp (by rw [found]; rfl)
  have shorter : (list.erase id).keys.length = list.keys.length - 1 := by
    rw [AList.keys_erase]
    exact List.length_erase_of_mem (AList.mem_keys.mp member)
  have positive : 0 < list.keys.length := List.length_pos_of_mem (AList.mem_keys.mp member)
  have before : list.keys.length = list.entries.length := List.length_map _
  have after : (list.erase id).keys.length = (list.erase id).entries.length := List.length_map _
  omega

section
variable {node : DeleteNode} {rest : List DeleteNode} (pending : Pending info)
  (front : info.tasks.toDeleteTaskList = node :: rest)

include pending front

/-- One turn that erases. -/
theorem eraseAt_cleared : Cleared [node] info (info.eraseAt 0 node) where
  entries := by
    change info.tasks.toDeleteTaskList = [node] ++ info.tasks.toDeleteTaskList.eraseIdx 0
    rw [front]
    rfl
  find := by
    intro key
    simp only [List.map_cons, List.map_nil, List.mem_singleton]
    exact find_erase info.tasks.taskList (keyOf info node) key
  count := count_erase (pending.live node (by rw [front]; exact List.mem_cons_self))
  curId := rfl
  heap := rfl
  nodes := rfl
  walked := rfl
  log := rfl

theorem eraseAt_pending : Pending (info.eraseAt 0 node) where
  live := by
    intro other member
    change other ∈ info.tasks.toDeleteTaskList.eraseIdx 0 at member
    rw [front, List.eraseIdx_zero, List.tail_cons] at member
    have alive := pending.live other (by rw [front]; exact List.mem_cons_of_mem _ member)
    have distinct := pending.distinct
    rw [front, List.map_cons, List.nodup_cons] at distinct
    have different : (info.heap other.ptask).id ≠ (info.heap node.ptask).id := by
      intro same
      have self := pending.live node (by rw [front]; exact List.mem_cons_self)
      rw [← same, alive] at self
      rw [← Option.some.inj self] at distinct
      exact distinct.1 (List.mem_map_of_mem member)
    change (info.tasks.taskList.erase (info.heap node.ptask).id).lookup (info.heap other.ptask).id = _
    rw [find_erase, if_neg different]
    exact alive
  distinct := by
    change ((info.tasks.toDeleteTaskList.eraseIdx 0).map DeleteNode.ptask).Nodup
    have distinct := pending.distinct
    rw [front, List.map_cons, List.nodup_cons] at distinct
    rw [front, List.eraseIdx_zero, List.tail_cons]
    exact distinct.2
  keyed := by
    intro key n found
    change (info.tasks.taskList.erase (info.heap node.ptask).id).lookup key = some n at found
    rw [find_erase] at found
    split at found
    · cases found
    · exact pending.keyed key n found

end

theorem Cleared.refl (info : MainInfo) : Cleared [] info info :=
  ⟨rfl, fun _ => rfl, rfl, rfl, rfl, rfl, rfl, (List.append_nil _).symm⟩

theorem Cleared.cons {node : DeleteNode} (first : Cleared [node] info middle)
    (others : Cleared taken middle next) : Cleared (node :: taken) info next where
  entries := by
    rw [first.entries, others.entries]
    rfl
  find := by
    intro key
    have keys : keyOf middle = keyOf info := by
      funext other
      rw [keyOf, first.heap, keyOf]
    rw [others.find, first.find, keys]
    simp only [List.map_cons, List.map_nil, List.mem_cons, List.not_mem_nil, or_false]
    by_cases here : key = keyOf info node
    · simp [here]
    · simp [here]
  count := by
    have now := first.count
    have later := others.count
    simp only [List.length_cons, List.length_nil] at now ⊢
    omega
  curId := others.curId.trans first.curId
  heap := others.heap.trans first.heap
  nodes := others.nodes.trans first.nodes
  walked := others.walked.trans first.walked
  log := by
    have keys : keyOf middle = keyOf info := by
      funext other
      rw [keyOf, first.heap, keyOf]
    rw [others.log, first.log]
    simp only [keys, List.map_cons, List.map_nil, List.append_assoc, List.singleton_append]

/-- The loop, by the turns that are left. It never looks at `end()`. -/
theorem sweepLoop_cleared (pending : Pending info) :
    ∃ next, sweepLoop t left 0 info = some next ∧ Cleared (leading info t left) info next := by
  induction left generalizing info with
  | zero =>
    have none : leading info t 0 = [] := by simp [leading]
    rw [none]
    exact ⟨info, rfl, Cleared.refl info⟩
  | succ left ih =>
    cases front : info.tasks.toDeleteTaskList with
    | nil =>
      have none : leading info t (left + 1) = [] := by simp [leading, front]
      rw [none]
      exact ⟨info, by simp [sweepLoop, front], Cleared.refl info⟩
    | cons node rest =>
      have turn : sweepLoop t (left + 1) 0 info =
          if releasable (info.heap node.ptask) node.timeDeleted t then
            sweepLoop t left 0 (info.eraseAt 0 node)
          else some info := by simp [sweepLoop, front]
      by_cases ready : releasable (info.heap node.ptask) node.timeDeleted t = true
      · have first := eraseAt_cleared pending front
        obtain ⟨next, swept, others⟩ := ih (eraseAt_pending pending front)
        have entries := first.entries
        have tail : (info.eraseAt 0 node).tasks.toDeleteTaskList = rest := by
          rw [front] at entries
          exact (List.cons.inj entries).2.symm
        have split : leading info t (left + 1) = node :: leading (info.eraseAt 0 node) t left := by
          simp only [leading, front, List.take_succ_cons, tail, first.heap]
          rw [List.takeWhile_cons_of_pos (by simpa using ready)]
        rw [turn, if_pos ready, split]
        exact ⟨next, swept, Cleared.cons first others⟩
      · have none : leading info t (left + 1) = [] := by
          simp only [leading, front, List.take_succ_cons]
          rw [List.takeWhile_cons_of_neg (by simpa using ready)]
        rw [turn, if_neg ready, none]
        exact ⟨info, rfl, Cleared.refl info⟩

theorem sweep_cleared (pending : Pending info) (t : Int) :
    ∃ next, info.deleteTaskToBeDeleted t = some next ∧
      Cleared (leading info t checkDeleteCount) info next := by
  by_cases some_entry : info.tasks.toDeleteTaskList.length > 0
  · rw [MainInfo.deleteTaskToBeDeleted, if_pos some_entry]
    exact sweepLoop_cleared pending
  · have empty : info.tasks.toDeleteTaskList = [] := by
      apply List.eq_nil_of_length_eq_zero
      omega
    have none : leading info t checkDeleteCount = [] := by simp [leading, empty]
    rw [MainInfo.deleteTaskToBeDeleted, if_neg some_entry, none]
    exact ⟨info, rfl, Cleared.refl info⟩

/-- The sweep removes the longest run of releasable entries at the front, cut at
`CHECK_DELETE_COUNT`, and their tasks, and changes nothing else. -/
theorem sweep_removes_longest (pending : Pending info) (t : Int) :
    ∃ taken next, info.deleteTaskToBeDeleted t = some next ∧
      LongestReleasable info t checkDeleteCount taken ∧ Cleared taken info next := by
  obtain ⟨next, returns, cleared⟩ := sweep_cleared pending t
  exact ⟨_, next, returns, leading_longest info t checkDeleteCount, cleared⟩

/-- Six closed tasks. The first is to be deleted at once, and the fifth is too new at the time 12. -/
def closedTasks : MainInfo :=
  { MainInfo.initial with
    tasks :=
      { taskList := (List.range 6).foldl (fun list n => list.insert (UInt64.ofNat (n + 1)) n) ∅
        toDeleteTaskList := [⟨0, 12⟩, ⟨1, 10⟩, ⟨2, 10⟩, ⟨3, 10⟩, ⟨4, 12⟩, ⟨5, 10⟩]
        curId := 6 }
    heap := fun n =>
      { TcpTask.zero with
        id := UInt64.ofNat (n + 1)
        deleteImmediately := n == 0
        conn := { TcpTask.zero.conn with state := .closed } }
    nodes := 6 }

/-- The first sweep takes three of four, and the next one stops at the fifth. -/
theorem sweep_removes_four :
    ∃ next last, closedTasks.deleteTaskToBeDeleted 12 = some next ∧
      LongestReleasable closedTasks 12 checkDeleteCount [⟨0, 12⟩, ⟨1, 10⟩, ⟨2, 10⟩] ∧
      Cleared [⟨0, 12⟩, ⟨1, 10⟩, ⟨2, 10⟩] closedTasks next ∧
      next.deleteTaskToBeDeleted 12 = some last ∧
      LongestReleasable next 12 checkDeleteCount [⟨3, 10⟩] ∧ Cleared [⟨3, 10⟩] next last ∧
      last.tasks.toDeleteTaskList = [⟨4, 12⟩, ⟨5, 10⟩] := by
  obtain ⟨middle, final, swept, pending, left, again, rest⟩ : ∃ middle final,
      closedTasks.deleteTaskToBeDeleted 12 = some middle ∧ Pending middle ∧
      middle.tasks.toDeleteTaskList = [⟨3, 10⟩, ⟨4, 12⟩, ⟨5, 10⟩] ∧
      middle.deleteTaskToBeDeleted 12 = some final ∧ final.tasks.toDeleteTaskList = [⟨4, 12⟩, ⟨5, 10⟩] :=
    ⟨_, _, rfl, by decide, by decide, rfl, by decide⟩
  obtain ⟨taken, next, returns, longest, cleared⟩ := sweep_removes_longest (by decide : Pending closedTasks) 12
  cases swept.symm.trans returns
  have first : [⟨0, 12⟩, ⟨1, 10⟩, ⟨2, 10⟩] = taken := List.append_cancel_right (left ▸ cleared.entries)
  obtain ⟨others, last, returns', longest', cleared'⟩ := sweep_removes_longest pending 12
  cases again.symm.trans returns'
  have entries := cleared'.entries
  rw [left, rest] at entries
  have second : [⟨3, 10⟩] = others := List.append_cancel_right entries
  cases first
  cases second
  exact ⟨middle, final, swept, longest, cleared, again, longest', cleared', rest⟩

end

/-! Reachable lists. -/

/-- What the sweep does to the view of a task that it takes. -/
def erasedView (view : View) : View :=
  { view with listed := false, marked := 0, acts := view.acts ++ [.erased view.task.id] }

section
variable {platform : Platform} {config : MainConfig} {info next : MainInfo} {t : Int}
  {taken : List DeleteNode}

theorem marked_of_mem {node : DeleteNode} (member : node ∈ info.tasks.toDeleteTaskList) :
    0 < (view info node.ptask).marked := by
  apply List.countP_pos_iff.mpr
  exact ⟨node, member, by simp⟩

/-- The task of an entry is listed, and the entry is its only one. -/
theorem good_entry {node : DeleteNode} (good : Good info)
    (member : node ∈ info.tasks.toDeleteTaskList) :
    (view info node.ptask).marked = 1 ∧ (view info node.ptask).listed = true := by
  have placed := (good.lives node.ptask (good.entries node member)).placed
  have positive := marked_of_mem member
  have single := placed.once
  have marked : (view info node.ptask).marked = 1 := by omega
  exact ⟨marked, placed.kept marked⟩

theorem marks_nodup (good : Good info) :
    (info.tasks.toDeleteTaskList.map DeleteNode.ptask).Nodup := by
  apply List.nodup_iff_count_le_one.mpr
  intro n
  by_cases some_entry : ∃ node ∈ info.tasks.toDeleteTaskList, node.ptask = n
  · obtain ⟨node, member, same⟩ := some_entry
    have single := (good_entry good member).1
    rw [same] at single
    rw [List.count, List.countP_map]
    have marks : marksOf info.tasks.toDeleteTaskList n = 1 := single
    rw [marksOf] at marks
    exact Nat.le_of_eq marks
  · have absent : n ∉ info.tasks.toDeleteTaskList.map DeleteNode.ptask := by
      intro member
      obtain ⟨node, among, same⟩ := List.mem_map.mp member
      exact some_entry ⟨node, among, same⟩
    rw [List.count_eq_zero_of_not_mem absent]
    exact Nat.zero_le 1

theorem listed_iff (n : Nat) :
    (view info n).listed = true ↔ info.tasks.find (info.heap n).id = some n := by
  simp [view]

theorem good_pending (good : Good info) : Pending info where
  live := fun node member => (listed_iff node.ptask).mp (good_entry good member).2
  distinct := marks_nodup good
  keyed := fun key n found => (good.keyed key n found).2

/-- The sweep took these entries and nothing else. -/
structure Swept (taken : List DeleteNode) (info next : MainInfo) : Prop where
  good : Good next
  heap : next.heap = info.heap
  nodes : next.nodes = info.nodes
  walked : next.walked = info.walked
  entries : info.tasks.toDeleteTaskList = taken ++ next.tasks.toDeleteTaskList
  count : next.tasks.count + taken.length = info.tasks.count
  views : ∀ n, view next n =
    if n ∈ taken.map DeleteNode.ptask then erasedView (view info n) else view info n

theorem marksOf_append (first second : List DeleteNode) (n : Nat) :
    marksOf (first ++ second) n = marksOf first n + marksOf second n := List.countP_append

theorem marksOf_pos {entries : List DeleteNode} {n : Nat} :
    0 < marksOf entries n ↔ n ∈ entries.map DeleteNode.ptask := by
  rw [marksOf, List.countP_pos_iff, List.mem_map]
  simp only [decide_eq_true_eq]

theorem actsOf_append (first second : List (Nat × Act)) (n : Nat) :
    actsOf (first ++ second) n = actsOf first n ++ actsOf second n := List.filterMap_append

theorem acts_unerased {n : Nat} (absent : n ∉ taken.map DeleteNode.ptask) :
    actsOf (taken.map fun node => (node.ptask, .erased (keyOf info node))) n = [] := by
  apply List.filterMap_eq_nil_iff.mpr
  intro entry member
  obtain ⟨node, among, same⟩ := List.mem_map.mp member
  rw [← same]
  apply if_neg
  intro self
  exact absent (List.mem_map.mpr ⟨node, among, self⟩)

theorem acts_erased {node : DeleteNode} (distinct : (taken.map DeleteNode.ptask).Nodup)
    (member : node ∈ taken) :
    actsOf (taken.map fun node => (node.ptask, .erased (keyOf info node))) node.ptask =
      [.erased (keyOf info node)] := by
  induction taken with
  | nil => cases member
  | cons first rest ih =>
    rw [List.map_cons, List.nodup_cons] at distinct
    have split : ∀ n, actsOf ((first :: rest).map fun node => (node.ptask, .erased (keyOf info node))) n =
        actsOf [(first.ptask, .erased (keyOf info first))] n ++
          actsOf (rest.map fun node => (node.ptask, .erased (keyOf info node))) n :=
      fun n => actsOf_append [_] _ n
    rw [split]
    rcases List.mem_cons.mp member with here | later
    · rw [here, acts_unerased distinct.1]
      simp [actsOf]
    · have other : first.ptask ≠ node.ptask := by
        intro self
        rw [self] at distinct
        exact distinct.1 (List.mem_map_of_mem later)
      rw [ih distinct.2 later]
      simp [actsOf, other]

/-- A task that was taken: its only entry was. -/
theorem view_taken {node : DeleteNode} (good : Good info) (cleared : Cleared taken info next)
    (member : node ∈ taken) : view next node.ptask = erasedView (view info node.ptask) := by
  have entered : node ∈ info.tasks.toDeleteTaskList := by
    rw [cleared.entries]
    exact List.mem_append_left _ member
  have among : node.ptask ∈ taken.map DeleteNode.ptask := List.mem_map_of_mem member
  have distinct : (taken.map DeleteNode.ptask).Nodup := by
    have all := marks_nodup good
    rw [cleared.entries, List.map_append] at all
    exact (List.nodup_append.mp all).1
  have marks : marksOf next.tasks.toDeleteTaskList node.ptask = 0 := by
    have once := (good_entry good entered).1
    have positive := marksOf_pos.mpr among
    simp only [view, cleared.entries, marksOf_append] at once
    omega
  have gone : next.tasks.find (info.heap node.ptask).id = none := by
    have key : keyOf info node ∈ taken.map (keyOf info) := List.mem_map_of_mem member
    rw [cleared.find]
    exact if_pos key
  have acts : actsOf next.log node.ptask =
      actsOf info.log node.ptask ++ [.erased (info.heap node.ptask).id] := by
    rw [cleared.log, actsOf_append, acts_erased distinct member, keyOf]
  simp only [view, erasedView, marks, gone, acts, cleared.heap, cleared.walked]
  rfl

/-- Any other task. -/
theorem view_kept {n : Nat} (good : Good info) (cleared : Cleared taken info next)
    (absent : n ∉ taken.map DeleteNode.ptask) : view next n = view info n := by
  have marks : marksOf next.tasks.toDeleteTaskList n = marksOf info.tasks.toDeleteTaskList n := by
    have none : marksOf taken n = 0 := by
      have positive := mt marksOf_pos.mp absent
      omega
    rw [cleared.entries, marksOf_append, none, Nat.zero_add]
  have found : (next.tasks.find (info.heap n).id == some n) =
      (info.tasks.find (info.heap n).id == some n) := by
    rw [cleared.find]
    split
    · next stolen =>
      obtain ⟨node, member, same⟩ := List.mem_map.mp stolen
      have entered : node ∈ info.tasks.toDeleteTaskList := by
        rw [cleared.entries]
        exact List.mem_append_left _ member
      have owner := (good_pending good).live node entered
      have other : node.ptask ≠ n := by
        intro self
        exact absent (List.mem_map.mpr ⟨node, member, self⟩)
      rw [keyOf] at same
      rw [← same, owner]
      simp [other]
    · rfl
  have acts : actsOf next.log n = actsOf info.log n := by
    rw [cleared.log, actsOf_append, acts_unerased absent, List.append_nil]
  simp only [view, marks, found, acts, cleared.heap, cleared.walked]

theorem swept_of_cleared (good : Good info) (cleared : Cleared (leading info t checkDeleteCount) info next) :
    Swept (leading info t checkDeleteCount) info next := by
  have views : ∀ n, view next n = if n ∈ (leading info t checkDeleteCount).map DeleteNode.ptask
      then erasedView (view info n) else view info n := by
    intro n
    split
    · next among =>
      obtain ⟨node, member, self⟩ := List.mem_map.mp among
      rw [← self]
      exact view_taken good cleared member
    · next absent => exact view_kept good cleared absent
  refine ⟨?_, cleared.heap, cleared.nodes, cleared.walked, cleared.entries, cleared.count, views⟩
  exact
    { counter := by
        rw [cleared.curId, cleared.nodes]
        exact good.counter
      ids := by
        rw [cleared.nodes, cleared.heap]
        exact good.ids
      keyed := by
        intro key n found
        rw [cleared.find] at found
        rw [cleared.nodes, cleared.heap]
        split at found
        · cases found
        · exact good.keyed key n found
      entries := by
        intro node member
        rw [cleared.nodes]
        apply good.entries node
        rw [cleared.entries]
        exact List.mem_append_right _ member
      logged := by
        intro entry among
        rw [cleared.nodes]
        rw [cleared.log] at among
        rcases List.mem_append.mp among with old | fresh
        · exact good.logged entry old
        · obtain ⟨node, member, same⟩ := List.mem_map.mp fresh
          rw [← same]
          exact good.entries node (mem_leading member).1
      lives := by
        intro n before
        rw [cleared.nodes] at before
        have life := good.lives n before
        by_cases among : n ∈ (leading info t checkDeleteCount).map DeleteNode.ptask
        · obtain ⟨node, member, self⟩ := List.mem_map.mp among
          subst self
          obtain ⟨entry, ready⟩ := mem_leading member
          obtain ⟨marked, listed⟩ := good_entry good entry
          rw [view_taken good cleared member]
          have erased : LifeStep 0 true node.ptask (.release t) (view info node.ptask) _ :=
            LifeStep.erase node.timeDeleted marked listed ready
          exact life.step erased
        · rw [view_kept good cleared among]
          exact life }

theorem sweep_spec (good : Good info) :
    ∃ next, info.deleteTaskToBeDeleted t = some next ∧
      Swept (leading info t checkDeleteCount) info next := by
  obtain ⟨next, returns, cleared⟩ := sweep_cleared (good_pending good) t
  exact ⟨next, returns, swept_of_cleared good cleared⟩

theorem sweep_swept (good : Good info)
    (taken : exec platform config info (.release t) = some next) :
    Swept (leading info t checkDeleteCount) info next := by
  obtain ⟨result, returns, swept⟩ := sweep_spec (t := t) good
  have same : result = next := Option.some.inj (returns.symm.trans taken)
  rw [← same]
  exact swept

theorem release_advance (good : Good info)
    (taken : exec platform config info (.release t) = some next) :
    Advance platform config (.release t) info next := by
  have swept := sweep_swept good taken
  refine ⟨by rw [swept.nodes], ?_, ?_, swept.good⟩
  · intro n before
    rw [swept.views]
    by_cases among : n ∈ (leading info t checkDeleteCount).map DeleteNode.ptask
    · obtain ⟨node, member, same⟩ := List.mem_map.mp among
      subst same
      obtain ⟨entry, ready⟩ := mem_leading member
      obtain ⟨marked, listed⟩ := good_entry good entry
      rw [if_pos among]
      exact LifeStep.erase node.timeDeleted marked listed ready
    · rw [if_neg among]
      exact LifeStep.other (by simp [target]) (by simp)
  · intro n after before
    rw [swept.nodes] at before
    omega

end

end EasyStressTest.Sweep
