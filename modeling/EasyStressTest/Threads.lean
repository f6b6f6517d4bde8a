import Mathlib.Logic.Function.Basic
import Mathlib.Data.List.Basic

/-!
Mutexes with an owner and a hold count, and counts over the first threads of a family of which
one changes at a time.
-/

namespace EasyStressTest.Threads

/-- Whether the owner can acquire the mutex again, and whether a release by a thread that is not
the owner is refused. -/
structure MutexKind where
  recursive : Bool
  checked : Bool
  deriving DecidableEq, Repr

/-- A held mutex was acquired once and `again` more times by its owner. -/
inductive Mutex (Thread : Type*) where
  | free
  | held (owner : Thread) (again : Nat)
  deriving DecidableEq, Repr

section
variable {Thread : Type*} [DecidableEq Thread]

/-- How often the thread holds the mutex. -/
def Mutex.holds (mutex : Mutex Thread) (thread : Thread) : Nat :=
  match mutex with
  | .free => 0
  | .held owner again => if owner = thread then again + 1 else 0

/-- `none` while the thread has to wait. -/
def Mutex.acquire (kind : MutexKind) (mutex : Mutex Thread) (thread : Thread) : Option (Mutex Thread) :=
  match mutex with
  | .free => some (.held thread 0)
  | .held owner again =>
      if owner = thread ∧ kind.recursive then some (.held owner (again + 1)) else none

def Mutex.release (kind : MutexKind) (mutex : Mutex Thread) (thread : Thread) : Mutex Thread :=
  match mutex with
  | .free => .free
  | .held owner 0 => if owner = thread ∨ !kind.checked then .free else .held owner 0
  | .held owner (again + 1) =>
      if owner = thread ∨ !kind.checked then .held owner again else .held owner (again + 1)

variable {kind : MutexKind} {mutex next : Mutex Thread} {thread owner : Thread} {again : Nat}

@[simp] theorem holds_free : (Mutex.free : Mutex Thread).holds thread = 0 := rfl

@[simp] theorem holds_held : (Mutex.held owner again).holds thread = if owner = thread then again + 1 else 0 :=
  rfl

theorem holds_pos : 0 < mutex.holds thread ↔ ∃ again, mutex = .held thread again := by
  cases mutex with
  | free => simp
  | held owner again =>
    by_cases same : owner = thread <;> simp [same]

theorem acquire_eq_some :
    mutex.acquire kind thread = some next ↔
      mutex = .free ∧ next = .held thread 0 ∨
        ∃ again, mutex = .held thread again ∧ kind.recursive = true ∧ next = .held thread (again + 1) := by
  cases mutex with
  | free =>
    simp only [Mutex.acquire, Option.some.injEq, true_and, reduceCtorEq, false_and, exists_false, or_false]
    exact eq_comm
  | held owner again =>
    by_cases allowed : owner = thread ∧ kind.recursive = true
    · obtain ⟨same, twice⟩ := allowed
      subst same
      simp only [Mutex.acquire, twice, and_self, if_true, Option.some.injEq, reduceCtorEq, false_and,
        false_or, Mutex.held.injEq, true_and, exists_eq_left']
      exact eq_comm
    · simp only [Mutex.acquire, if_neg allowed, reduceCtorEq, false_and, false_or, false_iff, not_exists]
      rintro more ⟨same, twice, _⟩
      exact allowed ⟨(Mutex.held.inj same).1, twice⟩

/-- A thread waits only for another owner, or for itself. -/
theorem acquire_eq_none :
    mutex.acquire kind thread = none ↔
      ∃ owner again, mutex = .held owner again ∧ ¬(owner = thread ∧ kind.recursive = true) := by
  cases mutex with
  | free => simp [Mutex.acquire]
  | held owner again => simp [Mutex.acquire]

/-- A mutex that is held after a release was held by the same owner before. -/
theorem release_eq_held (released : mutex.release kind thread = .held owner again) :
    mutex = .held owner again ∧ owner ≠ thread ∨ mutex = .held owner (again + 1) := by
  cases mutex with
  | free => cases released
  | held holder more =>
    by_cases same : holder = thread
    · subst same
      cases more with
      | zero => simp [Mutex.release] at released
      | succ more =>
        simp only [Mutex.release, true_or, if_true, Mutex.held.injEq] at released
        right
        rw [released.1, released.2]
    · by_cases checked : kind.checked = true
      · cases more <;> simp_all [Mutex.release]
      · cases more with
        | zero => simp [Mutex.release, checked] at released
        | succ more =>
          simp only [Mutex.release, checked, Bool.not_false, or_true, if_true, Mutex.held.injEq] at released
          right
          rw [released.1, released.2]

/-- An acquisition adds one to the count of its thread, which is not the first only where the mutex
is recursive. -/
theorem holds_acquire (acquired : mutex.acquire kind thread = some next) :
    next.holds thread = mutex.holds thread + 1 ∧ (mutex.holds thread = 0 ∨ kind.recursive = true) := by
  rcases acquire_eq_some.mp acquired with ⟨free, same⟩ | ⟨again, held, twice, same⟩
  · subst free same
    simp
  · subst held same
    simp [twice]

theorem holds_acquire_other (acquired : mutex.acquire kind thread = some next) (other : thread ≠ owner) :
    next.holds owner = mutex.holds owner := by
  rcases acquire_eq_some.mp acquired with ⟨free, same⟩ | ⟨again, held, _, same⟩
  · subst free same
    simp [other]
  · subst held same
    simp [other]

theorem holds_release (kind : MutexKind) (mutex : Mutex Thread) (thread : Thread) :
    (mutex.release kind thread).holds thread = mutex.holds thread - 1 := by
  cases mutex with
  | free => rfl
  | held holder again =>
    by_cases same : holder = thread
    · cases again <;> simp [Mutex.release, same]
    · cases again <;> by_cases checked : kind.checked = true <;> simp [Mutex.release, same, checked]

/-- A release takes from the count of the owner, if from any. -/
theorem holds_release_le (kind : MutexKind) (mutex : Mutex Thread) (thread owner : Thread) :
    (mutex.release kind thread).holds owner ≤ mutex.holds owner := by
  cases released : mutex.release kind thread with
  | free => exact Nat.zero_le _
  | held holder again =>
    rcases release_eq_held released with ⟨same, _⟩ | more
    · exact Nat.le_of_eq (by rw [same])
    · rw [more, holds_held, holds_held]
      split <;> omega

end

/-! Counting. -/

section
variable {α : Type*} {n p : Nat}

/-- How many of the first `n` members of the family satisfy the predicate. -/
def population (n : Nat) (family : Nat → α) (predicate : α → Bool) : Nat :=
  (List.range n).countP fun q => predicate (family q)

theorem population_succ (n : Nat) (family : Nat → α) (predicate : α → Bool) :
    population (n + 1) family predicate =
      population n family predicate + (predicate (family n)).toNat := by
  rw [population, List.range_succ, List.countP_append]
  cases found : predicate (family n) <;> simp [population, found]

theorem population_outside {family : Nat → α} {predicate : α → Bool} (value : α) (outside : n ≤ p) :
    population n (Function.update family p value) predicate = population n family predicate := by
  apply List.countP_congr
  intro q member
  have below := List.mem_range.mp member
  rw [Function.update_of_ne (by omega)]

/-- One member changes. -/
theorem population_update {family : Nat → α} {predicate : α → Bool} (value : α) (inside : p < n) :
    population n (Function.update family p value) predicate + (predicate (family p)).toNat =
      population n family predicate + (predicate value).toNat := by
  induction n with
  | zero => omega
  | succ n ih =>
    rw [population_succ, population_succ]
    by_cases last : p = n
    · subst last
      rw [population_outside value (Nat.le_refl _), Function.update_self]
      omega
    · have earlier := ih (by omega)
      rw [Function.update_of_ne (Ne.symm last)]
      omega

theorem population_pos {family : Nat → α} {predicate : α → Bool} (inside : p < n)
    (found : predicate (family p) = true) : 0 < population n family predicate := by
  apply List.countP_pos_iff.mpr
  exact ⟨p, List.mem_range.mpr inside, found⟩

theorem population_eq_zero {family : Nat → α} {predicate : α → Bool} :
    population n family predicate = 0 ↔ ∀ q < n, predicate (family q) = false := by
  simp [population, List.countP_eq_zero]

end

end EasyStressTest.Threads
