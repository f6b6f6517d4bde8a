import Mathlib.Data.List.Basic

/-!
Items that retire one by one and are released later, in the order in which they retired: a release
takes the ready items from the front of those that wait, and only so many at a time.
-/

namespace EasyStressTest.RetireQueue

structure Queue (α : Type*) where
  released : List α
  waiting : List α

inductive Move (α : Type*) where
  | retire (item : α)
  | release (ready : α → Bool)
  | rest

section
variable {α : Type*}

/-- All items that ever retired, in that order. -/
def Queue.history (queue : Queue α) : List α := queue.released ++ queue.waiting

/-- The ready items at the front, at most `limit`. -/
def front (limit : Nat) (ready : α → Bool) (waiting : List α) : List α := (waiting.take limit).takeWhile ready

def step (limit : Nat) (queue : Queue α) : Move α → Queue α
  | .retire item => { queue with waiting := queue.waiting ++ [item] }
  | .release ready =>
      let taken := front limit ready queue.waiting
      { released := queue.released ++ taken, waiting := queue.waiting.drop taken.length }
  | .rest => queue

def run (limit : Nat) (queue : Queue α) (moves : List (Move α)) : Queue α := moves.foldl (step limit) queue

def Move.isRelease : Move α → Bool
  | .release _ => true
  | _ => false

/-- The item that a move adds to the history. -/
def Move.retired : Move α → List α
  | .retire item => [item]
  | _ => []

/-- At a release, the items of the history that wait at positions up to p are ready. -/
def Move.Serves (queue : Queue α) (p : Nat) : Move α → Prop
  | .release ready => ∀ item ∈ queue.waiting.take (p + 1 - queue.released.length), ready item = true
  | _ => True

variable {limit p : Nat} {ready : α → Bool} {waiting : List α} {queue : Queue α} {move : Move α}

theorem front_leads (limit : Nat) (ready : α → Bool) (waiting : List α) : front limit ready waiting <+: waiting :=
  (List.takeWhile_prefix ready).trans (List.take_prefix limit waiting)

theorem length_front_le (limit : Nat) (ready : α → Bool) (waiting : List α) :
    (front limit ready waiting).length ≤ limit :=
  Nat.le_trans (List.takeWhile_prefix ready).length_le (List.length_take_le limit waiting)

theorem takeWhile_congr {β : Type*} {list : List β} {p q : β → Bool} (same : ∀ item ∈ list, p item = q item) :
    list.takeWhile p = list.takeWhile q := by
  induction list with
  | nil => rfl
  | cons item rest ih =>
    rw [List.takeWhile_cons, List.takeWhile_cons, same item List.mem_cons_self,
      ih fun other member => same other (List.mem_cons_of_mem item member)]

/-- What is released comes from the front, so the history only grows, and only at its end. -/
theorem history_step (limit : Nat) (queue : Queue α) (move : Move α) :
    (step limit queue move).history = queue.history ++ move.retired := by
  cases move with
  | retire item => exact (List.append_assoc _ _ _).symm
  | release ready =>
    have split := List.prefix_iff_eq_append.mp (front_leads limit ready queue.waiting)
    calc (step limit queue (.release ready)).history
        = queue.released ++ (front limit ready queue.waiting ++ queue.waiting.drop (front limit ready queue.waiting).length) :=
          List.append_assoc _ _ _
      _ = queue.released ++ queue.waiting := by rw [split]
      _ = queue.history ++ [] := (List.append_nil _).symm
  | rest => exact (List.append_nil _).symm

theorem history_run (limit : Nat) (queue : Queue α) (moves : List (Move α)) :
    (run limit queue moves).history = queue.history ++ moves.flatMap Move.retired := by
  induction moves generalizing queue with
  | nil => exact (List.append_nil _).symm
  | cons move rest ih =>
    have later : run limit queue (move :: rest) = run limit (step limit queue move) rest := rfl
    rw [later, ih, history_step, List.append_assoc, List.flatMap_cons]

theorem released_step (limit : Nat) (queue : Queue α) (move : Move α) :
    queue.released <+: (step limit queue move).released ∧
      (step limit queue move).released.length ≤ queue.released.length + if move.isRelease then limit else 0 := by
  cases move with
  | retire item => exact ⟨List.prefix_refl _, Nat.le_refl _⟩
  | release ready =>
    refine ⟨List.prefix_append _ _, ?_⟩
    have bound := length_front_le limit ready queue.waiting
    simp only [step, List.length_append, Move.isRelease, if_true]
    omega
  | rest => exact ⟨List.prefix_refl _, Nat.le_refl _⟩

theorem run_cons (limit : Nat) (queue : Queue α) (move : Move α) (rest : List (Move α)) :
    run limit queue (move :: rest) = run limit (step limit queue move) rest := rfl

/-- No more than `limit` items go at each release. -/
theorem released_run_le (limit : Nat) (queue : Queue α) (moves : List (Move α)) :
    (run limit queue moves).released.length ≤ queue.released.length + limit * moves.countP Move.isRelease := by
  induction moves generalizing queue with
  | nil => exact Nat.le_add_right _ _
  | cons move rest ih =>
    have later := ih (step limit queue move)
    have now := (released_step limit queue move).2
    rw [run_cons, List.countP_cons, Nat.mul_add]
    by_cases releases : move.isRelease = true
    · rw [if_pos releases] at now ⊢
      omega
    · rw [if_neg releases] at now ⊢
      omega

theorem released_run_leads (limit : Nat) (queue : Queue α) (moves : List (Move α)) :
    queue.released <+: (run limit queue moves).released := by
  induction moves generalizing queue with
  | nil => exact List.prefix_refl _
  | cons move rest ih => exact (released_step limit queue move).1.trans (ih (step limit queue move))

/-! How long an item waits. -/

/-- A release takes `limit` items when so many are ready at the front. -/
theorem le_length_front {count : Nat} (inside : count ≤ waiting.length) (few : count ≤ limit)
    (all : ∀ item ∈ waiting.take count, ready item = true) : count ≤ (front limit ready waiting).length := by
  have first : waiting.take count <+: waiting.take limit := List.take_prefix_take_left few
  obtain ⟨rest, split⟩ := first
  rw [front, ← split, List.takeWhile_append_of_pos all, List.length_append, List.length_take]
  omega

/-- The position up to which items are released moves on by `limit` at each release. -/
theorem served_step (within : p < queue.history.length) (serves : move.Serves queue p)
    {reached : Nat} (before : min (p + 1) reached ≤ queue.released.length) :
    min (p + 1) (reached + if move.isRelease then limit else 0) ≤ (step limit queue move).released.length := by
  cases move with
  | retire item => exact before
  | release ready =>
    have total : queue.history.length = queue.released.length + queue.waiting.length := List.length_append
    have taken : min (p + 1 - queue.released.length) limit ≤ (front limit ready queue.waiting).length := by
      apply le_length_front (by omega) (Nat.min_le_right _ _)
      intro item member
      exact serves item ((List.take_prefix_take_left (Nat.min_le_left _ _)).subset member)
    simp only [step, List.length_append, Move.isRelease, if_true]
    omega
  | rest => exact before

/-- Every move of the run serves the positions up to p. -/
def ServesAlong (limit p : Nat) : Queue α → List (Move α) → Prop
  | _, [] => True
  | queue, move :: rest => move.Serves queue p ∧ ServesAlong limit p (step limit queue move) rest

/-- The item at position p of the history is released after ⌈(p + 1) / limit⌉ releases, when those up to
it are ready. -/
theorem served_run {moves : List (Move α)} (within : p < queue.history.length)
    (serves : ServesAlong limit p queue moves) {reached : Nat} (before : min (p + 1) reached ≤ queue.released.length) :
    min (p + 1) (reached + limit * moves.countP Move.isRelease) ≤ (run limit queue moves).released.length := by
  induction moves generalizing queue reached with
  | nil => exact before
  | cons move rest ih =>
    have still : p < (step limit queue move).history.length := by
      rw [history_step, List.length_append]
      omega
    have later := ih still serves.2 (served_step within serves.1 before)
    rw [run_cons, List.countP_cons, Nat.mul_add]
    by_cases releases : move.isRelease = true
    · rw [if_pos releases] at later ⊢
      omega
    · rw [if_neg releases] at later ⊢
      omega

/-- Items that wait at positions up to p in a later state waited there before. -/
theorem waited {later : Queue α} (history : queue.history <+: later.history)
    (released : queue.released.length ≤ later.released.length) (within : p < queue.waiting.length) {item : α}
    (member : item ∈ later.waiting.take (queue.released.length + p + 1 - later.released.length)) :
    item ∈ queue.waiting.take (p + 1) := by
  have early : later.history.take (queue.released.length + (p + 1)) = queue.released ++ queue.waiting.take (p + 1) := by
    obtain ⟨more, whole⟩ := history
    rw [← whole, Queue.history, List.append_assoc, List.take_length_add_append,
      List.take_append_of_le_length (by omega)]
  have inside : item ∈ (later.history.take (queue.released.length + (p + 1))).drop later.released.length := by
    rw [List.drop_take, Queue.history, List.drop_left]
    exact member
  rw [early, ← Nat.sub_add_cancel released, Nat.add_comm, ← List.drop_drop, List.drop_left] at inside
  exact List.mem_of_mem_drop inside

end

end EasyStressTest.RetireQueue
