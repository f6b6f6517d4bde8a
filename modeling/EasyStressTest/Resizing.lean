import Mathlib.Algebra.Group.Nat.Defs
import Mathlib.Algebra.Ring.Int.Defs
import Mathlib.Data.List.Nodup
import Mathlib.Logic.Function.Basic
import EasyStressTest.Execution

/-!
`AddThread`, `DelThread`, `SetThreadNumber` and `ReleaseThreads` of `threadpool.cpp`, as one
thread calls them, where every new thread starts and every join returns. The sizes of the pool go
through `int`, and the subtractions of `SetThreadNumber` can overflow.
-/

namespace EasyStressTest.Resizing
open Execution

/-! `int`. -/

def Fits (value : Int) : Prop := -2 ^ 31 ≤ value ∧ value < 2 ^ 31

instance (value : Int) : Decidable (Fits value) := inferInstanceAs (Decidable (_ ∧ _))

/-- What becomes of a subtraction that overflows, which the language leaves to the compiler. -/
abbrev Overflow := Int32 → Int32 → Option Int32

def undefined : Overflow := fun _ _ => none

def wraps : Overflow := fun a b => some (a - b)

def intSub (overflow : Overflow) (a b : Int32) : Option Int32 :=
  if Fits (a.toInt - b.toInt) then some (a - b) else overflow a b

/-! The threads of the pool. -/

/-- `THREAD_NODE`; its `std::thread` is joinable until it was joined. -/
structure ThreadNode where
  joinable : Bool
  isExit : Bool
  deriving DecidableEq, Repr

/-- What is done with a node. -/
inductive Act where
  | new
  | exit
  | join
  | delete
  deriving DecidableEq, Repr

/-- `m_threads`, with the nodes that it points to and what was done with them; node p is the p-th
that was created. -/
structure Roster where
  threads : List Nat
  node : Nat → ThreadNode
  created : Nat
  log : List (Nat × Act)

def Roster.empty : Roster where
  threads := []
  node := fun _ => ⟨true, false⟩
  created := 0
  log := []

/-- What was done with a node, in order. -/
def Roster.history (roster : Roster) (p : Nat) : List Act :=
  roster.log.filterMap fun entry => if entry.1 = p then some entry.2 else none

def Roster.Freed (roster : Roster) (p : Nat) : Prop := .delete ∈ roster.history p

instance (roster : Roster) (p : Nat) : Decidable (roster.Freed p) := inferInstanceAs (Decidable (_ ∈ _))

/-- `(int)m_threads.size()`. -/
def Roster.size (roster : Roster) : Int32 := Int32.ofNat roster.threads.length

/-- One turn of the loop of `AddThread`. -/
def Roster.newThread (roster : Roster) : Roster where
  threads := roster.threads ++ [roster.created]
  node := Function.update roster.node roster.created ⟨true, false⟩
  created := roster.created + 1
  log := roster.log ++ [(roster.created, .new)]

def Roster.addThread (roster : Roster) (threadnum : Int32) : Roster :=
  Nat.repeat Roster.newThread threadnum.toInt.toNat roster

/-- `pnode->is_exit = true`. -/
def Roster.exit (roster : Roster) (pnode : Nat) : Roster :=
  { roster with
    node := Function.update roster.node pnode { roster.node pnode with isExit := true }
    log := roster.log ++ [(pnode, .exit)] }

/-- `if (pnode->thread.joinable()) pnode->thread.join()`. -/
def Roster.join (roster : Roster) (pnode : Nat) : Roster :=
  if (roster.node pnode).joinable then
    { roster with
      node := Function.update roster.node pnode { roster.node pnode with joinable := false }
      log := roster.log ++ [(pnode, .join)] }
  else roster

/-- `delete pnode`, and `m_threads` loses its last entry. -/
def Roster.delete (roster : Roster) (pnode : Nat) : Roster :=
  { roster with
    threads := roster.threads.dropLast
    log := roster.log ++ [(pnode, .delete)] }

/-- `DelThread()`. To use a node that was deleted is undefined. -/
def Roster.delOne (roster : Roster) : Option Roster :=
  if 0 < roster.size then
    match roster.threads[(roster.size.toInt - 1).toNat]? with
    | some pnode =>
        if roster.Freed pnode then none else some (((roster.exit pnode).join pnode).delete pnode)
    | none => none
  else some roster

/-- The loop of `DelThread(int)`. -/
def Roster.delTurns : Nat → Roster → Option Roster
  | 0, roster => some roster
  | turns + 1, roster => roster.delOne.bind (delTurns turns)

def Roster.delThread (roster : Roster) (threadnum : Int32) : Option Roster :=
  roster.delTurns threadnum.toInt.toNat

def Roster.setThreadNumber (overflow : Overflow) (roster : Roster) (threadnum : Int32) : Option Roster := do
  let missing ← intSub overflow threadnum roster.size
  let grown := roster.addThread missing
  if threadnum < grown.size then
    let surplus ← intSub overflow grown.size threadnum
    grown.delThread surplus
  else
    some grown

/-- `ReleaseTasks` does nothing. -/
def Roster.releaseThreads (roster : Roster) : Option Roster := roster.delThread roster.size

inductive Call where
  | addThread (threadnum : Int32)
  | delThread (threadnum : Int32)
  | setThreadNumber (threadnum : Int32)
  | releaseThreads
  deriving DecidableEq

def step (overflow : Overflow) (roster : Roster) : Call → Option Roster
  | .addThread threadnum => some (roster.addThread threadnum)
  | .delThread threadnum => roster.delThread threadnum
  | .setThreadNumber threadnum => roster.setThreadNumber overflow threadnum
  | .releaseThreads => roster.releaseThreads

/-! What a pool of threads should be after a call. -/

/-- Every entry of `m_threads` is a node that was not deleted; every node is there once and was not
asked to exit, or was asked to exit, joined and deleted, each once. -/
structure Accounted (roster : Roster) : Prop where
  entries : ∀ p ∈ roster.threads, p < roster.created ∧ ¬roster.Freed p
  nodes : ∀ p < roster.created,
    roster.threads.count p = 1 ∧ (roster.node p).isExit = false ∧ roster.history p = [.new] ∨
      roster.threads.count p = 0 ∧ roster.history p = [.new, .exit, .join, .delete]

/-- The number of threads that is asked for; none, when it is negative. -/
def asked (threadnum : Int32) : Nat := (max threadnum.toInt 0).toNat

/-- The pool has as many threads as it was asked for, old ones as far as there are. -/
structure Resized (threadnum : Int32) (roster next : Roster) : Prop where
  size : next.threads.length = asked threadnum
  kept : next.threads.take (min roster.threads.length (asked threadnum)) =
    roster.threads.take (min roster.threads.length (asked threadnum))

/-- The call returns, and leaves the pool as it should be. -/
def Kept (overflow : Overflow) (roster : Roster) (call : Call) : Prop :=
  ∃ next, step overflow roster call = some next ∧ Accounted next ∧
    ∀ threadnum, call = .setThreadNumber threadnum → Resized threadnum roster next

/-- The difference that `SetThreadNumber` begins with does not overflow. -/
def Admitted (roster : Roster) : Call → Prop
  | .setThreadNumber threadnum => Fits (threadnum.toInt - roster.threads.length)
  | _ => True

instance (roster : Roster) (call : Call) : Decidable (Admitted roster call) :=
  match call with
  | .addThread _ => isTrue trivial
  | .delThread _ => isTrue trivial
  | .setThreadNumber threadnum => inferInstanceAs (Decidable (Fits (threadnum.toInt - roster.threads.length)))
  | .releaseThreads => isTrue trivial

/-- `(int)m_threads.size()` is the size where it is positive. -/
def Counted (roster : Roster) : Prop := 0 < roster.size → roster.threads.length < 2 ^ 31

instance (roster : Roster) : Decidable (Counted roster) := inferInstanceAs (Decidable (_ → _))

/-- The difference that `SetThreadNumber` ends with does not overflow either, and the size is one
that an `int` can hold where it matters. -/
def Manageable (roster : Roster) : Call → Prop
  | .addThread _ => True
  | .delThread threadnum => 0 < threadnum → Counted roster
  | .setThreadNumber threadnum =>
      roster.threads.length < 2 ^ 31 ∧ threadnum.toInt - roster.threads.length ≠ -2 ^ 31
  | .releaseThreads => Counted roster

instance (roster : Roster) (call : Call) : Decidable (Manageable roster call) :=
  match call with
  | .addThread _ => isTrue trivial
  | .delThread threadnum => inferInstanceAs (Decidable (0 < threadnum → Counted roster))
  | .setThreadNumber threadnum =>
      inferInstanceAs (Decidable (roster.threads.length < 2 ^ 31 ∧ threadnum.toInt - roster.threads.length ≠ -2 ^ 31))
  | .releaseThreads => inferInstanceAs (Decidable (Counted roster))

section
variable {overflow : Overflow} {roster next : Roster} {p pnode : Nat} {threadnum a b : Int32} {call : Call}

theorem positive_iff : 0 < a ↔ 0 < a.toInt := Int32.lt_iff_toInt_lt

theorem intSub_fits {m n : Int} (first : a.toInt = m) (second : b.toInt = n) (fits : Fits (m - n))
    (overflow : Overflow) : intSub overflow a b = some (a - b) ∧ (a - b).toInt = m - n := by
  subst first second
  refine ⟨if_pos fits, ?_⟩
  obtain ⟨low, high⟩ := fits
  rw [Int32.toInt_sub, Int.bmod_eq_of_le (by omega) (by omega)]

theorem intSub_undefined (beyond : ¬Fits (a.toInt - b.toInt)) : intSub undefined a b = none := if_neg beyond

theorem size_small (small : roster.threads.length < 2 ^ 31) : roster.size.toInt = roster.threads.length :=
  Int32.toInt_ofNat_of_lt small

theorem size_large (large : 2 ^ 31 ≤ roster.threads.length) (bounded : roster.threads.length < 2 ^ 32) :
    roster.size.toInt = roster.threads.length - 2 ^ 32 := by
  rw [Roster.size, Int32.toInt_ofNat', Int.bmod_def, Int.emod_eq_of_lt (by omega) (by simp [Int32.size]; omega),
    if_neg (by simp [Int32.size]; omega)]
  rfl

/-- A size that is positive as an `int` but not an `int` is beyond `unsigned int`. -/
theorem size_beyond (positive : 0 < roster.size) (uncounted : ¬roster.threads.length < 2 ^ 31) :
    2 ^ 32 < roster.threads.length := by
  rw [positive_iff] at positive
  by_contra bounded
  by_cases last : roster.threads.length = 2 ^ 32
  · rw [Roster.size, last] at positive
    revert positive
    decide
  · rw [size_large (by omega) (by omega)] at positive
    omega

theorem history_append (log : List (Nat × Act)) (q : Nat) (act : Act) :
    (log ++ [(q, act)]).filterMap (fun entry => if entry.1 = p then some entry.2 else none) =
      log.filterMap (fun entry => if entry.1 = p then some entry.2 else none) ++
        if q = p then [act] else [] := by
  rw [List.filterMap_append]
  by_cases self : q = p <;> simp [self]

theorem history_newThread (roster : Roster) :
    roster.newThread.history p = roster.history p ++ if roster.created = p then [.new] else [] :=
  history_append roster.log roster.created .new

theorem history_exit (roster : Roster) :
    (roster.exit pnode).history p = roster.history p ++ if pnode = p then [.exit] else [] :=
  history_append roster.log pnode .exit

theorem history_join (joinable : (roster.node pnode).joinable = true) :
    (roster.join pnode).history p = roster.history p ++ if pnode = p then [.join] else [] := by
  rw [Roster.join, if_pos joinable]
  exact history_append roster.log pnode .join

theorem history_delete (roster : Roster) :
    (roster.delete pnode).history p = roster.history p ++ if pnode = p then [.delete] else [] :=
  history_append roster.log pnode .delete

/-! The nodes in and out of the pool. -/

structure Rostered (roster : Roster) : Prop where
  nodup : roster.threads.Nodup
  live : ∀ p ∈ roster.threads, p < roster.created ∧ roster.node p = ⟨true, false⟩ ∧ roster.history p = [.new]
  gone : ∀ p < roster.created, p ∉ roster.threads → roster.history p = [.new, .exit, .join, .delete]
  unborn : ∀ p, roster.created ≤ p → roster.node p = ⟨true, false⟩ ∧ roster.history p = []

theorem Rostered.empty : Rostered Roster.empty where
  nodup := List.nodup_nil
  live := by simp [Roster.empty]
  gone := by simp [Roster.empty]
  unborn := by simp [Roster.empty, Roster.history]

theorem Rostered.unfreed (rostered : Rostered roster) (entry : p ∈ roster.threads) : ¬roster.Freed p := by
  rw [Roster.Freed, (rostered.live p entry).2.2]
  decide

theorem Rostered.accounted (rostered : Rostered roster) : Accounted roster where
  entries := fun p entry => ⟨(rostered.live p entry).1, rostered.unfreed entry⟩
  nodes := by
    intro p born
    by_cases entry : p ∈ roster.threads
    · obtain ⟨_, node, history⟩ := rostered.live p entry
      exact Or.inl ⟨List.count_eq_one_of_mem rostered.nodup entry, by rw [node], history⟩
    · exact Or.inr ⟨List.count_eq_zero.mpr entry, rostered.gone p born entry⟩

theorem Rostered.newThread (rostered : Rostered roster) : Rostered roster.newThread where
  nodup := by
    apply List.nodup_append.mpr
    refine ⟨rostered.nodup, List.nodup_singleton _, ?_⟩
    intro p entry q fresh same
    have born := (rostered.live p entry).1
    rw [same, List.mem_singleton.mp fresh] at born
    omega
  live := by
    intro p entry
    rw [history_newThread]
    change p < roster.created + 1 ∧ Function.update roster.node roster.created ⟨true, false⟩ p = _ ∧ _
    rcases List.mem_append.mp entry with old | fresh
    · obtain ⟨born, node, history⟩ := rostered.live p old
      rw [Function.update_of_ne (by omega), if_neg (by omega), history]
      exact ⟨by omega, node, rfl⟩
    · rw [List.mem_singleton.mp fresh, Function.update_self, if_pos rfl,
        (rostered.unborn _ (Nat.le_refl _)).2]
      exact ⟨by omega, rfl, rfl⟩
  gone := by
    intro p born absent
    have absent' : p ∉ roster.threads ∧ p ≠ roster.created := by
      simpa [Roster.newThread] using absent
    have earlier : p < roster.created := by
      change p < roster.created + 1 at born
      omega
    rw [history_newThread, if_neg (Ne.symm absent'.2), List.append_nil]
    exact rostered.gone p earlier absent'.1
  unborn := by
    intro p later
    change roster.created + 1 ≤ p at later
    change Function.update roster.node roster.created ⟨true, false⟩ p = _ ∧ _
    rw [Function.update_of_ne (by omega), history_newThread, if_neg (by omega), List.append_nil]
    exact rostered.unborn p (by omega)

theorem addThread_spec (rostered : Rostered roster) (threadnum : Int32) :
    Rostered (roster.addThread threadnum) ∧ ∃ fresh, fresh.length = threadnum.toInt.toNat ∧
      (roster.addThread threadnum).threads = roster.threads ++ fresh := by
  rw [Roster.addThread]
  generalize threadnum.toInt.toNat = turns
  induction turns with
  | zero => exact ⟨rostered, [], rfl, (List.append_nil _).symm⟩
  | succ turns ih =>
    obtain ⟨grown, fresh, count, threads⟩ := ih
    refine ⟨grown.newThread, fresh ++ [(Nat.repeat Roster.newThread turns roster).created], ?_, ?_⟩
    · rw [List.length_append, count]
      rfl
    · rw [← List.append_assoc, ← threads]
      rfl

/-- The pool without a node. -/
def Roster.without (roster : Roster) (pnode : Nat) : Roster := ((roster.exit pnode).join pnode).delete pnode

theorem joinable_exit (roster : Roster) (pnode : Nat) :
    ((roster.exit pnode).node pnode).joinable = (roster.node pnode).joinable := by
  simp [Roster.exit]

theorem history_without (joinable : (roster.node pnode).joinable = true) :
    (roster.without pnode).history p =
      roster.history p ++ if pnode = p then [.exit, .join, .delete] else [] := by
  have still := (joinable_exit roster pnode).trans joinable
  rw [Roster.without, history_delete, history_join still, history_exit]
  by_cases self : pnode = p <;> simp [self]

theorem without_other (joinable : (roster.node pnode).joinable = true) (other : p ≠ pnode) :
    (roster.without pnode).node p = roster.node p := by
  simp [Roster.without, Roster.delete, Roster.join, Roster.exit, joinable, other]

theorem without_threads (roster : Roster) (pnode : Nat) :
    (roster.without pnode).threads = roster.threads.dropLast ∧
      (roster.without pnode).created = roster.created := by
  rw [Roster.without, Roster.join]
  split <;> exact ⟨rfl, rfl⟩

theorem mem_last {front : List Nat} (last : roster.threads = front ++ [pnode]) : pnode ∈ roster.threads := by
  rw [last]
  exact List.mem_append_right _ (List.mem_singleton_self _)

theorem length_last {front : List Nat} (last : roster.threads = front ++ [pnode]) :
    roster.threads.length = front.length + 1 := by
  rw [last, List.length_append, List.length_singleton]

theorem Rostered.without (rostered : Rostered roster) {front : List Nat} (last : roster.threads = front ++ [pnode]) :
    Rostered (roster.without pnode) := by
  obtain ⟨threads, created⟩ := without_threads roster pnode
  rw [last, List.dropLast_concat] at threads
  have nodup := rostered.nodup
  rw [last] at nodup
  obtain ⟨distinct, _, apart⟩ := List.nodup_append.mp nodup
  have entry := mem_last last
  have joinable : (roster.node pnode).joinable = true := by rw [(rostered.live pnode entry).2.1]
  refine ⟨by rw [threads]; exact distinct, ?_, ?_, ?_⟩
  · intro p member
    rw [threads] at member
    have other : p ≠ pnode := apart p member pnode (List.mem_singleton_self _)
    have before : p ∈ roster.threads := by
      rw [last]
      exact List.mem_append_left _ member
    rw [created, without_other joinable other, history_without joinable, if_neg (Ne.symm other), List.append_nil]
    exact rostered.live p before
  · intro p born absent
    rw [created] at born
    rw [threads] at absent
    rw [history_without joinable]
    by_cases self : pnode = p
    · subst self
      rw [if_pos rfl, (rostered.live pnode entry).2.2]
      rfl
    · have before : p ∉ roster.threads := by
        rw [last]
        simp [absent, Ne.symm self]
      rw [if_neg self, List.append_nil]
      exact rostered.gone p born before
  · intro p later
    rw [created] at later
    have other : pnode ≠ p := by
      intro self
      have born := (rostered.live pnode entry).1
      omega
    rw [without_other joinable (Ne.symm other), history_without joinable, if_neg other, List.append_nil]
    exact rostered.unborn p later

theorem delOne_empty (empty : roster.threads = []) : roster.delOne = some roster := by
  have zero : ¬(0 < roster.size) := by
    rw [Roster.size, empty]
    decide
  rw [Roster.delOne, if_neg zero]

theorem delOne_last (small : roster.threads.length < 2 ^ 31) {front : List Nat}
    (last : roster.threads = front ++ [pnode]) (unfreed : ¬roster.Freed pnode) :
    roster.delOne = some (roster.without pnode) := by
  have size := size_small small
  have length := length_last last
  have positive : 0 < roster.size := by
    rw [positive_iff, size, length]
    exact Int.natCast_pos.mpr (Nat.succ_pos _)
  have index : (roster.size.toInt - 1).toNat = front.length := by
    rw [size, length]
    omega
  have found : roster.threads[front.length]? = some pnode := by rw [last, List.getElem?_concat_length]
  simp only [Roster.delOne, if_pos positive, index, found, if_neg unfreed]
  rfl

/-- `DelThread` takes nodes from the end. -/
theorem delTurns_spec (rostered : Rostered roster) (small : roster.threads.length < 2 ^ 31) (turns : Nat) :
    ∃ next, roster.delTurns turns = some next ∧ Rostered next ∧
      next.threads = roster.threads.take (roster.threads.length - turns) := by
  induction turns generalizing roster with
  | zero => exact ⟨roster, rfl, rostered, by rw [Nat.sub_zero, List.take_length]⟩
  | succ turns ih =>
    rcases List.eq_nil_or_concat roster.threads with empty | ⟨front, pnode, last⟩
    · obtain ⟨next, deleted, left, threads⟩ := ih rostered small
      refine ⟨next, ?_, left, ?_⟩
      · rw [Roster.delTurns, delOne_empty empty]
        exact deleted
      · rw [threads, empty, List.take_nil, List.take_nil]
    · rw [List.concat_eq_append] at last
      have shorter : (roster.without pnode).threads = front := by
        rw [(without_threads roster pnode).1, last, List.dropLast_concat]
      have length := length_last last
      have smaller : (roster.without pnode).threads.length < 2 ^ 31 := by
        rw [shorter]
        omega
      obtain ⟨next, deleted, left, threads⟩ := ih (rostered.without last) smaller
      refine ⟨next, ?_, left, ?_⟩
      · rw [Roster.delTurns, delOne_last small last (rostered.unfreed (mem_last last))]
        exact deleted
      · rw [threads, shorter, length, last, Nat.add_sub_add_right, List.take_append_of_le_length (Nat.sub_le _ _)]

/-- A pool whose size is no positive `int` keeps its threads. -/
theorem delTurns_uncounted (none : ¬0 < roster.size) (turns : Nat) : roster.delTurns turns = some roster := by
  induction turns with
  | zero => rfl
  | succ turns ih =>
    rw [Roster.delTurns, Roster.delOne, if_neg none]
    exact ih

theorem delThread_spec (rostered : Rostered roster) (counted : 0 < threadnum → Counted roster) :
    ∃ next, roster.delThread threadnum = some next ∧ Rostered next := by
  by_cases positive : 0 < threadnum
  · by_cases some_thread : 0 < roster.size
    · obtain ⟨next, deleted, left, _⟩ :=
        delTurns_spec rostered (counted positive some_thread) threadnum.toInt.toNat
      exact ⟨next, deleted, left⟩
    · exact ⟨roster, delTurns_uncounted some_thread _, rostered⟩
  · have turns : threadnum.toInt.toNat = 0 := by
      rw [positive_iff] at positive
      omega
    refine ⟨roster, ?_, rostered⟩
    rw [Roster.delThread, turns]
    rfl

theorem addThread_none (none : threadnum.toInt ≤ 0) : roster.addThread threadnum = roster := by
  rw [Roster.addThread, Int.toNat_of_nonpos none]
  rfl

theorem lt_size (small : roster.threads.length < 2 ^ 31) :
    threadnum < roster.size ↔ threadnum.toInt < roster.threads.length := by
  rw [Int32.lt_iff_toInt_lt, size_small small]

/-- `SetThreadNumber` up. -/
theorem setThreadNumber_up (rostered : Rostered roster) (up : (roster.threads.length : Int) ≤ threadnum.toInt) :
    ∃ next, (∀ overflow, roster.setThreadNumber overflow threadnum = some next) ∧ Rostered next ∧
      Resized threadnum roster next := by
  have range := Int32.toInt_lt threadnum
  have small : roster.threads.length < 2 ^ 31 := by omega
  have fits : Fits (threadnum.toInt - roster.threads.length) := ⟨by omega, by omega⟩
  have missing := intSub_fits rfl (size_small small) fits
  obtain ⟨grown, fresh, count, threads⟩ := addThread_spec rostered (threadnum - roster.size)
  rw [(missing undefined).2] at count
  have total : (roster.addThread (threadnum - roster.size)).threads.length = asked threadnum := by
    rw [threads, List.length_append, count, asked]
    omega
  have bounded : (roster.addThread (threadnum - roster.size)).threads.length < 2 ^ 31 := by
    rw [total, asked]
    omega
  have settled : ¬threadnum < (roster.addThread (threadnum - roster.size)).size := by
    rw [lt_size bounded, total, asked]
    omega
  refine ⟨_, ?_, grown, total, ?_⟩
  · intro overflow
    simp only [Roster.setThreadNumber, (missing overflow).1, Option.bind_eq_bind, Option.bind_some, if_neg settled]
  · rw [threads, List.take_append_of_le_length (Nat.min_le_left _ _)]

/-- `SetThreadNumber` down. -/
theorem setThreadNumber_down (rostered : Rostered roster) (small : roster.threads.length < 2 ^ 31)
    (down : threadnum.toInt < roster.threads.length) (above : -2 ^ 31 < threadnum.toInt - roster.threads.length) :
    ∃ next, (∀ overflow, roster.setThreadNumber overflow threadnum = some next) ∧ Rostered next ∧
      Resized threadnum roster next := by
  have fits : Fits (threadnum.toInt - roster.threads.length) := ⟨by omega, by omega⟩
  have missing := intSub_fits rfl (size_small small) fits
  have negated : Fits (roster.threads.length - threadnum.toInt) := ⟨by omega, by omega⟩
  have surplus := intSub_fits (size_small small) rfl negated
  have nothing : roster.addThread (threadnum - roster.size) = roster := by
    apply addThread_none
    rw [(missing undefined).2]
    omega
  have more : threadnum < roster.size := (lt_size small).mpr down
  obtain ⟨next, deleted, left, remain⟩ := delTurns_spec rostered small (roster.size - threadnum).toInt.toNat
  have stay : roster.threads.length - (roster.size - threadnum).toInt.toNat = asked threadnum := by
    rw [(surplus undefined).2, asked]
    omega
  rw [stay] at remain
  have fewer : asked threadnum ≤ roster.threads.length := by
    rw [asked]
    omega
  refine ⟨next, ?_, left, ?_, ?_⟩
  · intro overflow
    simp only [Roster.setThreadNumber, (missing overflow).1, Option.bind_eq_bind, Option.bind_some, nothing,
      if_pos more, (surplus overflow).1]
    exact deleted
  · rw [remain, List.length_take, Nat.min_eq_left fewer]
  · rw [remain, Nat.min_eq_right fewer, List.take_take, Nat.min_self]

/-- Both differences of `SetThreadNumber` are the ones it means. -/
theorem setThreadNumber_spec (rostered : Rostered roster) (small : roster.threads.length < 2 ^ 31)
    (fits : Fits (threadnum.toInt - roster.threads.length))
    (above : threadnum.toInt - roster.threads.length ≠ -2 ^ 31) :
    ∃ next, (∀ overflow, roster.setThreadNumber overflow threadnum = some next) ∧ Rostered next ∧
      Resized threadnum roster next := by
  obtain ⟨low, _⟩ := fits
  by_cases down : threadnum.toInt < roster.threads.length
  · exact setThreadNumber_down rostered small down (by omega)
  · exact setThreadNumber_up rostered (by omega)

/-- A manageable call does what it should, whatever the compiler makes of overflows. -/
theorem manageable_step (rostered : Rostered roster) (admitted : Admitted roster call)
    (manageable : Manageable roster call) :
    ∃ next, (∀ overflow, step overflow roster call = some next) ∧ Rostered next ∧
      ∀ threadnum, call = .setThreadNumber threadnum → Resized threadnum roster next := by
  cases call with
  | addThread threadnum =>
    exact ⟨roster.addThread threadnum, fun _ => rfl, (addThread_spec rostered threadnum).1, nofun⟩
  | delThread threadnum =>
    obtain ⟨next, deleted, left⟩ := delThread_spec rostered manageable
    exact ⟨next, fun _ => deleted, left, nofun⟩
  | setThreadNumber threadnum =>
    obtain ⟨next, set, left, resized⟩ := setThreadNumber_spec rostered manageable.1 admitted manageable.2
    refine ⟨next, set, left, ?_⟩
    intro other same
    cases same
    exact resized
  | releaseThreads =>
    have counted : 0 < roster.size → Counted roster := fun _ => manageable
    obtain ⟨next, deleted, left⟩ := delThread_spec rostered counted
    exact ⟨next, fun _ => deleted, left, nofun⟩

/-! Sizes that are no `int`. -/

theorem freed_without (roster : Roster) (pnode : Nat) : (roster.without pnode).Freed pnode := by
  rw [Roster.Freed, Roster.without, history_delete, if_pos rfl]
  exact List.mem_append_right _ (List.mem_singleton_self _)

/-- `m_threads` has an entry, not among those that `DelThread` can reach, for a node that was
deleted. -/
def Dangling (roster : Roster) : Prop :=
  2 ^ 32 ≤ roster.threads.length ∧ ∃ i < 2 ^ 31, ∃ p, roster.threads[i]? = some p ∧ roster.Freed p

theorem Dangling.unaccounted (dangling : Dangling roster) : ¬Accounted roster := by
  intro accounted
  obtain ⟨_, i, _, p, entry, freed⟩ := dangling
  exact (accounted.entries p (List.mem_of_getElem? entry)).2 freed

/-- Beyond `unsigned int` the entry that is deleted is not the one that is erased. -/
theorem delOne_beyond (positive : 0 < roster.size) (beyond : 2 ^ 32 < roster.threads.length)
    (deleted : roster.delOne = some next) :
    ∃ i < 2 ^ 31, ∃ p, next.threads[i]? = some p ∧ next.Freed p ∧
      next.threads = roster.threads.dropLast := by
  have range := Int32.toInt_lt roster.size
  have index : (roster.size.toInt - 1).toNat < 2 ^ 31 := by omega
  obtain ⟨pnode, found⟩ : ∃ pnode, roster.threads[(roster.size.toInt - 1).toNat]? = some pnode :=
    ⟨_, List.getElem?_eq_getElem (by omega)⟩
  simp only [Roster.delOne, if_pos positive, found] at deleted
  split at deleted
  · cases deleted
  · cases deleted
    have threads : (roster.without pnode).threads = roster.threads.dropLast :=
      (without_threads roster pnode).1
    refine ⟨_, index, pnode, ?_, freed_without roster pnode, threads⟩
    change (roster.without pnode).threads[_]? = _
    rw [threads, List.getElem?_dropLast, if_pos (by omega)]
    exact found

theorem Dangling.delTurns (dangling : Dangling roster) {turns : Nat}
    (deleted : roster.delTurns turns = some next) : Dangling next := by
  induction turns generalizing roster with
  | zero =>
    cases deleted
    exact dangling
  | succ turns ih =>
    obtain ⟨after, one, rest⟩ := Option.bind_eq_some_iff.mp deleted
    apply ih ?_ rest
    by_cases positive : 0 < roster.size
    · have beyond := size_beyond positive (by have long := dangling.1; omega)
      obtain ⟨i, low, p, entry, freed, threads⟩ := delOne_beyond positive beyond one
      refine ⟨?_, i, low, p, entry, freed⟩
      rw [threads, List.length_dropLast]
      omega
    · rw [Roster.delOne, if_neg positive] at one
      cases one
      exact dangling

/-- A pool that `DelThread` miscounts is left with an entry for a deleted node. -/
theorem miscounted (positive : 0 < threadnum) (uncounted : ¬Counted roster)
    (deleted : roster.delThread threadnum = some next) : Dangling next := by
  obtain ⟨some_thread, big⟩ := Classical.not_imp.mp uncounted
  have beyond := size_beyond some_thread big
  obtain ⟨turns, count⟩ : ∃ turns, threadnum.toInt.toNat = turns + 1 := by
    rw [positive_iff] at positive
    exact ⟨threadnum.toInt.toNat - 1, by omega⟩
  rw [Roster.delThread, count] at deleted
  obtain ⟨after, one, rest⟩ := Option.bind_eq_some_iff.mp deleted
  obtain ⟨i, low, p, entry, freed, threads⟩ := delOne_beyond some_thread beyond one
  have dangling : Dangling after := by
    refine ⟨?_, i, low, p, entry, freed⟩
    rw [threads, List.length_dropLast]
    omega
  exact dangling.delTurns rest

/-- A number of threads that cannot be subtracted from the size, or the size from it. -/
theorem setThreadNumber_undefined (admitted : Fits (threadnum.toInt - roster.threads.length))
    (unmanageable : ¬(roster.threads.length < 2 ^ 31 ∧ threadnum.toInt - roster.threads.length ≠ -2 ^ 31)) :
    roster.setThreadNumber undefined threadnum = none := by
  obtain ⟨low, high⟩ := admitted
  have range := Int32.toInt_lt threadnum
  by_cases small : roster.threads.length < 2 ^ 31
  · have edge : threadnum.toInt - roster.threads.length = -2 ^ 31 := by
      by_contra other
      exact unmanageable ⟨small, other⟩
    obtain ⟨missing, value⟩ := intSub_fits rfl (size_small small) ⟨low, high⟩ undefined
    have nothing : roster.addThread (threadnum - roster.size) = roster := by
      apply addThread_none
      rw [value]
      omega
    have more : threadnum < roster.size := (lt_size small).mpr (by omega)
    have beyond : ¬Fits (roster.size.toInt - threadnum.toInt) := by
      rintro ⟨_, below⟩
      rw [size_small small] at below
      omega
    simp only [Roster.setThreadNumber, missing, Option.bind_eq_bind, Option.bind_some, nothing, if_pos more,
      intSub_undefined beyond, Option.bind_none]
  · have beyond : ¬Fits (threadnum.toInt - roster.size.toInt) := by
      rintro ⟨_, below⟩
      rw [size_large (by omega) (by omega)] at below
      omega
    simp only [Roster.setThreadNumber, intSub_undefined beyond, Option.bind_eq_bind, Option.bind_none]

/-- A call that does what it should is manageable. -/
theorem manageable_of_kept (admitted : Admitted roster call) (kept : Kept undefined roster call) :
    Manageable roster call := by
  obtain ⟨next, taken, accounted, _⟩ := kept
  cases call with
  | addThread threadnum => trivial
  | delThread threadnum =>
    intro positive
    by_contra uncounted
    exact (miscounted positive uncounted taken).unaccounted accounted
  | setThreadNumber threadnum =>
    by_contra unmanageable
    have none := setThreadNumber_undefined admitted unmanageable
    cases none.symm.trans taken
  | releaseThreads =>
    by_contra uncounted
    have positive : 0 < roster.size := (Classical.not_imp.mp uncounted).1
    exact (miscounted positive uncounted taken).unaccounted accounted

/-- Along manageable calls no overflow happens, and every call does what it should. -/
theorem kept_along (overflow : Overflow) {calls : List Call} (rostered : Rostered roster)
    (admitted : Along (step undefined) Admitted roster calls)
    (manageable : Along (step undefined) Manageable roster calls) :
    Along (step overflow) (Kept overflow) roster calls := by
  induction calls generalizing roster with
  | nil => trivial
  | cons call rest ih =>
    obtain ⟨next, taken, left, resized⟩ := manageable_step rostered admitted.1 manageable.1
    refine ⟨⟨next, taken overflow, left.accounted, resized⟩, fun other same => ?_⟩
    cases same.symm.trans (taken overflow)
    exact ih left (admitted.2 next (taken undefined)) (manageable.2 next (taken undefined))

/-- The constructor, which is a call of `AddThread`, and the calls after it do what they should,
whatever the compiler makes of overflows, exactly when each of them is manageable. -/
theorem kept_iff (calls : List Call) (admitted : Along (step undefined) Admitted Roster.empty calls) :
    (∀ overflow, Along (step overflow) (Kept overflow) Roster.empty calls) ↔
      Along (step undefined) Manageable Roster.empty calls := by
  apply Iff.intro
  · intro kept
    have same : ∀ roster call, Rostered roster → Admitted roster call →
        (Kept undefined roster call ↔ Manageable roster call) := by
      intro roster call rostered admitted
      refine ⟨manageable_of_kept admitted, fun manageable => ?_⟩
      obtain ⟨next, taken, left, resized⟩ := manageable_step rostered admitted manageable
      exact ⟨next, taken undefined, left.accounted, resized⟩
    have preserved : ∀ roster call next, Rostered roster → Admitted roster call →
        Kept undefined roster call → step undefined roster call = some next → Rostered next := by
      intro roster call next rostered admitted kept taken
      obtain ⟨after, same, left, _⟩ := manageable_step rostered admitted (manageable_of_kept admitted kept)
      cases taken.symm.trans (same undefined)
      exact left
    exact (along_congr preserved same Rostered.empty admitted).mp (kept undefined)
  · exact fun manageable overflow => kept_along overflow Rostered.empty admitted manageable

/-- Grown, shrunk to nothing and refilled. -/
theorem kept_grown_and_shrunk :
    Along (step wraps) (Kept wraps) Roster.empty
      [.addThread 2, .setThreadNumber 4, .delThread 9, .setThreadNumber (-1), .addThread 3, .setThreadNumber 2,
        .releaseThreads] :=
  (kept_iff _ (by decide)).mpr (by decide) wraps

/-- A thread that is still there when none was asked for. -/
theorem thread_stays :
    ¬∀ calls, Along (step wraps) Admitted Roster.empty calls →
      Along (step wraps) (Kept wraps) Roster.empty calls := by
  intro always
  have kept := always [.addThread 1, .setThreadNumber (-2147483647)] (by decide)
  obtain ⟨next, taken, _, resized⟩ := (kept.2 (Roster.empty.addThread 1) rfl).1
  have same : next = Roster.empty.addThread 1 := by
    cases taken
    rfl
  have size := (resized _ rfl).size
  rw [same] at size
  revert size
  decide

end

end EasyStressTest.Resizing
