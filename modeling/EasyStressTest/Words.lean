import Mathlib.Data.BitVec
import Mathlib.Data.FinEnum
import Mathlib.Data.Fintype.EquivFin
import Mathlib.Data.Nat.ModEq
import Mathlib.Data.Nat.Prime.Basic

/-!
Operations on the words of a machine that lose nothing: a word can be had back from its rotation,
from its product with an odd number, and from its sum with a part of itself that was shifted down.
-/

namespace EasyStressTest.Words
open Function

variable {w : Nat}

/-- The shifts and the OR that a rotation is written as. -/
def rotl (x : BitVec w) (r : Nat) : BitVec w := x <<< r ||| x >>> (w - r)

/-- The same with an exclusive OR. -/
def rotlXor (x : BitVec w) (r : Nat) : BitVec w := x <<< r ^^^ x >>> (w - r)

/-- A word with its upper part folded onto its lower part. -/
def xorShift (x : BitVec w) (r : Nat) : BitVec w := x ^^^ x >>> r

theorem getLsbD_rotl (x : BitVec w) {r i : Nat} (fits : r ≤ w) (inside : i < w) :
    (rotl x r).getLsbD i = if i < r then x.getLsbD (w - r + i) else x.getLsbD (i - r) := by
  rw [rotl, BitVec.getLsbD_or, BitVec.getLsbD_shiftLeft, BitVec.getLsbD_ushiftRight]
  by_cases low : i < r
  · simp [low]
  · have above : x.getLsbD (w - r + i) = false := BitVec.getLsbD_of_ge x _ (by omega)
    simp [low, inside, above]

theorem rotl_injective {r : Nat} (fits : r ≤ w) : Injective fun x : BitVec w => rotl x r := by
  intro x y same
  apply BitVec.eq_of_getLsbD_eq
  intro i inside
  by_cases high : i + r < w
  · have bits := congrArg (fun z : BitVec w => z.getLsbD (i + r)) same
    simp only [getLsbD_rotl _ fits high, if_neg (show ¬i + r < r by omega), Nat.add_sub_cancel] at bits
    exact bits
  · have bits := congrArg (fun z : BitVec w => z.getLsbD (i + r - w)) same
    simp only [getLsbD_rotl _ fits (show i + r - w < w by omega), if_pos (show i + r - w < r by omega),
      show w - r + (i + r - w) = i by omega] at bits
    exact bits

/-- From the top bit down, each bit follows from those above it. -/
theorem xorShift_injective {r : Nat} (shifts : 0 < r) : Injective fun x : BitVec w => xorShift x r := by
  intro x y same
  have agree : ∀ below i, w - below ≤ i → x.getLsbD i = y.getLsbD i := by
    intro below
    induction below with
    | zero =>
      intro i beyond
      rw [BitVec.getLsbD_of_ge x i (by omega), BitVec.getLsbD_of_ge y i (by omega)]
    | succ below ih =>
      intro i from_here
      have bits := congrArg (fun z : BitVec w => z.getLsbD i) same
      simp only [xorShift, BitVec.getLsbD_xor, BitVec.getLsbD_ushiftRight] at bits
      rw [ih (r + i) (by omega)] at bits
      exact Bool.xor_left_inj.mp bits
  apply BitVec.eq_of_getLsbD_eq
  exact fun i _ => agree w i (by omega)

theorem mul_injective {factor : BitVec w} (odd : factor.toNat % 2 = 1) :
    Injective fun x : BitVec w => x * factor := by
  intro x y same
  have values := congrArg BitVec.toNat same
  simp only [BitVec.toNat_mul] at values
  have coprime : Nat.gcd (2 ^ w) factor.toNat = 1 := by
    apply Nat.Coprime.pow_left
    exact Odd.coprime_two_left (Nat.odd_iff.mpr odd)
  apply BitVec.eq_of_toNat_eq
  have congruent : x.toNat ≡ y.toNat [MOD 2 ^ w] := Nat.ModEq.cancel_right_of_coprime coprime values
  exact Nat.ModEq.eq_of_lt_of_lt congruent x.isLt y.isLt

theorem xor_injective (mask : BitVec w) : Injective fun x : BitVec w => x ^^^ mask :=
  fun _ _ same => (BitVec.xor_left_inj mask).mp same

theorem xorOnto_injective (word : BitVec w) : Injective fun x : BitVec w => word ^^^ x :=
  fun _ _ same => (BitVec.xor_right_inj word).mp same

theorem add_injective (term : BitVec w) : Injective fun x : BitVec w => x + term :=
  fun _ _ same => add_right_cancel same

end EasyStressTest.Words
