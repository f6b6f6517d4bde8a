import EasyStressTest.Population

/-!
The walk of `close_loop`: it closes every handle that is open, and no other.
-/

namespace EasyStressTest.Shutdown
open Define HttpTask Options Tasks Libuv Callbacks Loop Execution Lifecycle Simulation Population

section
variable {platform : Platform} {config : MainConfig} {info next : MainInfo}

/-- What the walk does to one task. -/
def walkOne (info : MainInfo) (n : Nat) : MainInfo :=
  if onLoop (info.heap n).conn then closeWalkCb info n else info

def walkedView (view : View) : View :=
  if view.task.conn.state = .opened then
    { view with task := closeOpen view.task false, acts := view.acts ++ [.close false] }
  else view

theorem walkOne_open {n : Nat} (opened : (info.heap n).conn.state = .opened) :
    walkOne info n = uvClose info n false := by
  simp [walkOne, onLoop, closeWalkCb, uvIsClosing, opened]

theorem walkOne_other {n : Nat} (notOpened : (info.heap n).conn.state ≠ .opened) :
    walkOne info n = info := by
  unfold walkOne
  cases state : (info.heap n).conn.state with
  | none => simp [onLoop, state]
  | opened => exact absurd state notOpened
  | closing notify => simp [onLoop, closeWalkCb, uvIsClosing, state]
  | closed => simp [onLoop, state]

theorem walkOne_frame (info : MainInfo) (n : Nat) : Frame n info (walkOne info n) := by
  by_cases opened : (info.heap n).conn.state = .opened
  · rw [walkOne_open opened]
    exact frame_uvClose info n false
  · rw [walkOne_other opened]
    exact Frame.refl

theorem walkOne_view (n : Nat) : view (walkOne info n) n = walkedView (view info n) := by
  by_cases opened : (info.heap n).conn.state = .opened
  · have here : (view info n).task.conn.state = .opened := opened
    rw [walkOne_open opened, view_uvClose_open info n false (by simp [uvIsClosing, opened]), walkedView,
      if_pos here]
    rfl
  · have here : (view info n).task.conn.state ≠ .opened := opened
    rw [walkOne_other opened, walkedView, if_neg here]

theorem walkedView_life {sizeBits : Nat} {http : Bool} {n : Nat} {view : View} :
    LifeStep sizeBits http n .walk view { walkedView view with walked := true } := by
  by_cases opened : view.task.conn.state = .opened
  · simp only [walkedView, if_pos opened]
    exact LifeStep.walkOpen opened
  · simp only [walkedView, if_neg opened]
    exact LifeStep.walkOther opened

/-- The first `count` turns of the walk. -/
def walkFirst (info : MainInfo) (count : Nat) : MainInfo := (List.range count).foldl walkOne info

theorem walkFirst_succ (info : MainInfo) (count : Nat) :
    walkFirst info (count + 1) = walkOne (walkFirst info count) count := by
  rw [walkFirst, List.range_succ, List.foldl_append]
  rfl

/-- What the first turns leave as it was, and what they do to the views. -/
structure WalkedTo (info : MainInfo) (count : Nat) (next : MainInfo) : Prop where
  nodes : next.nodes = info.nodes
  tasks : next.tasks = info.tasks
  sameId : ∀ n, (next.heap n).id = (info.heap n).id
  logged : ∀ entry ∈ next.log, entry ∈ info.log ∨ entry.1 < count
  visited : ∀ n < count, view next n = walkedView (view info n)
  ahead : ∀ n, count ≤ n → view next n = view info n

theorem walkOne_tasks (info : MainInfo) (n : Nat) : (walkOne info n).tasks = info.tasks := by
  by_cases opened : (info.heap n).conn.state = .opened
  · rw [walkOne_open opened, uvClose_open info n false (by simp [uvIsClosing, opened])]
    rfl
  · rw [walkOne_other opened]

theorem walkFirst_spec (info : MainInfo) (count : Nat) : WalkedTo info count (walkFirst info count) := by
  induction count with
  | zero =>
    exact ⟨rfl, rfl, fun _ => rfl, fun _ member => Or.inl member, fun _ absurdity => by omega,
      fun _ _ => rfl⟩
  | succ count ih =>
    have turn := walkOne_frame (walkFirst info count) count
    rw [walkFirst_succ]
    refine ⟨turn.nodes.trans ih.nodes, (walkOne_tasks _ _).trans ih.tasks,
      fun n => (turn.sameId n).trans (ih.sameId n), ?_, ?_, ?_⟩
    · intro entry member
      rcases turn.logged entry member with old | fresh
      · rcases ih.logged entry old with older | earlier
        · exact Or.inl older
        · exact Or.inr (by omega)
      · exact Or.inr (by omega)
    · intro n before
      by_cases self : n = count
      · subst self
        rw [walkOne_view, ih.ahead n (by omega)]
      · rw [turn.apart n self]
        exact ih.visited n (by omega)
    · intro n after
      rw [turn.apart n (by omega)]
      exact ih.ahead n (by omega)

theorem view_closeLoop {info : MainInfo} {n : Nat} (bound : n < info.nodes) :
    view (closeLoop info) n = { walkedView (view info n) with walked := true } := by
  have visited := (walkFirst_spec info info.nodes).visited n bound
  rw [← visited]
  rfl

theorem walk_advance (good : Good info) : Advance platform config .walk info (closeLoop info) := by
  have walked := walkFirst_spec info info.nodes
  have sameNodes : (closeLoop info).nodes = info.nodes := walked.nodes
  have sameTasks : (closeLoop info).tasks = info.tasks := walked.tasks
  have sameId : ∀ n, ((closeLoop info).heap n).id = (info.heap n).id := walked.sameId
  have lived : ∀ n < info.nodes, LifeStep platform.sizeBits (builtin config) n .walk (view info n)
      (view (closeLoop info) n) := by
    intro n before
    rw [view_closeLoop before]
    exact walkedView_life
  refine ⟨by rw [sameNodes], lived, ?_, ?_⟩
  · intro n after before
    rw [sameNodes] at before
    omega
  · exact
      { counter := by
          rw [sameTasks, sameNodes]
          exact good.counter
        ids := by
          intro n before
          rw [sameNodes] at before
          rw [sameId]
          exact good.ids n before
        keyed := by
          intro key n found
          rw [sameTasks] at found
          rw [sameNodes, sameId]
          exact good.keyed key n found
        entries := by
          rw [sameTasks, sameNodes]
          exact good.entries
        logged := by
          intro entry member
          rw [sameNodes]
          rcases walked.logged entry member with old | visited
          · exact good.logged entry old
          · exact visited
        lives := by
          intro n before
          rw [sameNodes] at before
          exact (good.lives n before).step (lived n before) }

end

end EasyStressTest.Shutdown
