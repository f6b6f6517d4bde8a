import EasyStressTest.Reachability

/-!
The sweep stops at the first entry that it cannot release. Entries come in the order of their
closing, and one that is to be released at once can stand behind one that has to wait.
-/

namespace EasyStressTest.EarlyExit
open Define HttpTask Options Tasks Libuv Callbacks Loop Execution Lifecycle Population Sweep Reachability

def ready (info : MainInfo) (t : Int) (node : DeleteNode) : Bool :=
  releasable (info.heap node.ptask) node.timeDeleted t

/-- What a scan leaves that looks at each of the first `CHECK_DELETE_COUNT` entries and removes
every releasable one. -/
def plainScan (info : MainInfo) (t : Int) : List DeleteNode :=
  (info.tasks.toDeleteTaskList.take checkDeleteCount).filter (fun node => !ready info t node) ++
    info.tasks.toDeleteTaskList.drop checkDeleteCount

/-- No releasable entry among the first `CHECK_DELETE_COUNT` stands behind another that is not. -/
def ReadyFirst (info : MainInfo) (t : Int) : Prop :=
  (info.tasks.toDeleteTaskList.take checkDeleteCount).Pairwise fun earlier later =>
    ready info t later = true → ready info t earlier = true

instance (info : MainInfo) (t : Int) : Decidable (ReadyFirst info t) :=
  inferInstanceAs (Decidable (List.Pairwise _ _))

/-- Dropping a prefix is filtering when all that would be dropped stands in front. -/
theorem dropWhile_eq_filter_iff {α : Type*} (p : α → Bool) (list : List α) :
    list.dropWhile p = list.filter (fun a => !p a) ↔
      list.Pairwise fun earlier later => p later = true → p earlier = true := by
  induction list with
  | nil => simp
  | cons head rest ih =>
    by_cases now : p head = true
    · rw [List.dropWhile_cons_of_pos now, List.pairwise_cons, ← ih]
      simp [now]
    · rw [List.dropWhile_cons_of_neg now, List.pairwise_cons]
      have kept : (head :: rest).filter (fun a => !p a) = head :: rest.filter fun a => !p a :=
        List.filter_cons_of_pos (by simpa using now)
      rw [kept, List.cons.injEq, eq_self, true_and, eq_comm, List.filter_eq_self]
      apply Iff.intro
      · intro none
        have never : ∀ a ∈ rest, ¬p a = true := by
          intro a member
          simpa using none a member
        refine ⟨fun a member found => absurd found (never a member), ?_⟩
        exact List.pairwise_of_forall_mem_list fun _ _ b member found => absurd found (never b member)
      · rintro ⟨behind, _⟩ a member
        simpa using fun found => now (behind a member found)

section
variable {platform : Platform} {config : MainConfig} {info next : MainInfo} {t : Int} {limit : Nat}

/-- The loop leaves what it did not take. -/
theorem left_entries {taken rest entries : List DeleteNode} {p : DeleteNode → Bool}
    (split : entries = taken ++ rest) (front : taken = (entries.take limit).takeWhile p) :
    rest = (entries.take limit).dropWhile p ++ entries.drop limit := by
  have whole : entries = taken ++ ((entries.take limit).dropWhile p ++ entries.drop limit) := by
    calc
      _ = entries.take limit ++ entries.drop limit := (List.take_append_drop limit entries).symm
      _ = _ := by rw [front, ← List.append_assoc, List.takeWhile_append_dropWhile]
  exact List.append_cancel_left (split.symm.trans whole)

/-- The sweep of a reachable list leaves what the plain scan leaves, exactly when no releasable
entry has to queue. -/
theorem early_exit_iff (reachable : Reachable platform config info) (t : Int) :
    ∃ next, info.deleteTaskToBeDeleted t = some next ∧
      (next.tasks.toDeleteTaskList = plainScan info t ↔ ReadyFirst info t) := by
  obtain ⟨next, returns, swept⟩ := sweep_spec (t := t) (reachable_good reachable)
  refine ⟨next, returns, ?_⟩
  have left := left_entries swept.entries rfl
  rw [left, plainScan, List.append_left_inj]
  exact dropWhile_eq_filter_iff (ready info t) _

end

/-- The first task is refused, the second gets its whole reply; both are closed by the time 100. -/
def twoClosed : List Event :=
  [.tick fun _ => some 0, .tick fun _ => some 0,
    .workInit 0, .workConnect 0 0, .connected 0 (-1) 100 0, .closed 0 100,
    .workInit 1, .workConnect 1 0, .connected 1 0 100 0, .written 1 0,
    .readData 1 (bytes "</html>\r\n\r\n"), .readRetired 1, .closed 1 100]

/-- The entry of the second task is to be released at once and waits for the first. -/
theorem immediate_queues :
    ∃ info next, session ⟨64, 32⟩ mainConfig (fun _ => none) twoClosed = some info ∧
      builtin mainConfig = true ∧ info.deleteTaskToBeDeleted 100 = some next ∧
        (info.heap 1).deleteImmediately = true ∧
          next.tasks.toDeleteTaskList ≠ plainScan info 100 :=
  ⟨_, _, rfl, by decide, rfl, by decide, by decide⟩

/-- Two seconds later both are released. -/
theorem early_exit_late :
    ∃ info next, session ⟨64, 32⟩ mainConfig (fun _ => none) twoClosed = some info ∧
      info.deleteTaskToBeDeleted 102 = some next ∧
        next.tasks.toDeleteTaskList = plainScan info 102 := by
  obtain ⟨info, ran, first⟩ : ∃ info,
      session ⟨64, 32⟩ mainConfig (fun _ => none) twoClosed = some info ∧ ReadyFirst info 102 :=
    ⟨_, rfl, by decide⟩
  obtain ⟨next, returns, same⟩ := early_exit_iff ⟨_, _, ran⟩ 102
  exact ⟨info, next, ran, returns, same.mpr first⟩

end EasyStressTest.EarlyExit
