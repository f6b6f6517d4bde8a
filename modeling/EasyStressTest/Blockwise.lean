import Mathlib.Data.List.OfFn
import Mathlib.Logic.Function.Basic

/-!
Keys that are taken in block by block: whole blocks of one size as long as there is enough left,
and then the rest. What is known of the two steps, that they lose nothing, is known of the whole.
-/

namespace EasyStressTest.Blockwise
open Function

variable {State α : Type*}

/-- Takes blocks from the front of the key while `keep` elements stay behind them. -/
def digest (size keep : Nat) (turn last : State → List α → State) (s : State) (key : List α) : State :=
  if 0 < size ∧ size + keep ≤ key.length then
    digest size keep turn last (turn s (key.take size)) (key.drop size)
  else last s key
termination_by key.length
decreasing_by
  rw [List.length_drop]
  omega

section
variable {size keep : Nat} {turn last : State → List α → State} {s : State} {key front back : List α}

theorem digest_long (positive : 0 < size) (long : size + keep ≤ key.length) :
    digest size keep turn last s key = digest size keep turn last (turn s (key.take size)) (key.drop size) := by
  rw [digest, if_pos ⟨positive, long⟩]

theorem digest_last (short : key.length < size + keep) : digest size keep turn last s key = last s key := by
  rw [digest, if_neg (by omega)]

theorem digest_cons (positive : 0 < size) (s : State) {block rest : List α} (whole : block.length = size)
    (enough : keep ≤ rest.length) :
    digest size keep turn last s (block ++ rest) = digest size keep turn last (turn s block) rest := by
  rw [digest_long positive (by rw [List.length_append]; omega), List.take_append_of_le_length (by omega),
    List.take_of_length_le (by omega), List.drop_append_of_le_length (by omega), List.drop_of_length_le (by omega),
    List.nil_append]

/-- Whole blocks at the front of a key lead to a state from which the rest goes on. -/
theorem digest_append (positive : 0 < size) (s : State) {j : Nat} (blocks : front.length = size * j) :
    ∃ t, ∀ rest, keep ≤ rest.length →
      digest size keep turn last s (front ++ rest) = digest size keep turn last t rest := by
  induction j generalizing s front with
  | zero =>
    rw [List.eq_nil_of_length_eq_zero blocks]
    exact ⟨s, fun _ _ => rfl⟩
  | succ j ih =>
    rw [Nat.mul_succ] at blocks
    have later : (front.drop size).length = size * j := by
      rw [List.length_drop]
      omega
    obtain ⟨t, goes_on⟩ := ih (turn s (front.take size)) later
    refine ⟨t, fun rest enough => ?_⟩
    have whole : (front.take size).length = size := by
      rw [List.length_take]
      omega
    rw [← List.take_append_drop size front, List.append_assoc,
      digest_cons positive s whole (by rw [List.length_append]; omega)]
    exact goes_on rest enough

/-- A key takes different states to different states, and reaches them all. -/
theorem digest_bijective (turns : ∀ block, Bijective fun s => turn s block)
    (lasts : ∀ rest, Bijective fun s => last s rest) (key : List α) :
    Bijective fun s => digest size keep turn last s key := by
  induction length : key.length using Nat.strong_induction_on generalizing key with
  | _ n ih =>
    by_cases long : 0 < size ∧ size + keep ≤ key.length
    · have rest := ih (key.drop size).length (by rw [List.length_drop]; omega) (key.drop size) rfl
      have same : (fun s => digest size keep turn last s key) =
          (fun s => digest size keep turn last s (key.drop size)) ∘ fun s => turn s (key.take size) :=
        funext fun s => digest_long long.1 long.2
      rw [same]
      exact rest.comp (turns (key.take size))
    · have same : (fun s => digest size keep turn last s key) = fun s => last s key := by
        funext s
        rw [digest, if_neg long]
      rw [same]
      exact lasts key

/-- With everything else in the key fixed, different values of one block lead to different states, and
all states are reached. -/
theorem digest_block_bijective (positive : 0 < size) (turns : ∀ block, Bijective fun s => turn s block)
    (lasts : ∀ rest, Bijective fun s => last s rest)
    (turn_block : ∀ s, Bijective fun block : Fin size → α => turn s (List.ofFn block))
    (last_block : ∀ s, back.length < keep → Bijective fun block : Fin size → α => last s (List.ofFn block ++ back))
    (s : State) {j : Nat} (blocks : front.length = size * j) (enough : keep ≤ size) :
    Bijective fun block : Fin size → α => digest size keep turn last s (front ++ List.ofFn block ++ back) := by
  obtain ⟨t, goes_on⟩ := @digest_append State α size keep turn last front positive s j blocks
  have before : ∀ block : Fin size → α, digest size keep turn last s (front ++ List.ofFn block ++ back) =
      digest size keep turn last t (List.ofFn block ++ back) := by
    intro block
    rw [List.append_assoc]
    apply goes_on
    rw [List.length_append, List.length_ofFn]
    omega
  by_cases more : keep ≤ back.length
  · have same : (fun block : Fin size → α => digest size keep turn last s (front ++ List.ofFn block ++ back)) =
        (fun s => digest size keep turn last s back) ∘ fun block => turn t (List.ofFn block) :=
      funext fun block => (before block).trans (digest_cons positive t List.length_ofFn more)
    rw [same]
    exact (digest_bijective turns lasts back).comp (turn_block t)
  · have same : (fun block : Fin size → α => digest size keep turn last s (front ++ List.ofFn block ++ back)) =
        fun block => last t (List.ofFn block ++ back) := by
      funext block
      rw [before, digest_last (by rw [List.length_append, List.length_ofFn]; omega)]
    rw [same]
    exact last_block t (by omega)

end

end EasyStressTest.Blockwise
