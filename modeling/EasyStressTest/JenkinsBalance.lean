import Mathlib.SetTheory.Cardinal.Finite
import EasyStressTest.JenkinsPaths

/-!
`mix` and `final` lose nothing, so the state at the end of a key stands for each block of the key
as long as the rest of it stays. The hash is one of the three words of that state: every block of
12 bytes spreads its values over all hashes alike.
-/

namespace EasyStressTest.JenkinsBalance
open Function Words LittleEndian JenkinsHash JenkinsPaths

/-- `mix` in reverse. -/
def unmix : State → State
  | ⟨a, b, c⟩ =>
    let b := b - a; let c := c ^^^ rot b 4; let c := c + b
    let a := a - c; let b := b ^^^ rot a 19; let b := b + a
    let c := c - b; let a := a ^^^ rot c 16; let a := a + c
    let b := b - a; let c := c ^^^ rot b 8; let c := c + b
    let a := a - c; let b := b ^^^ rot a 6; let b := b + a
    let c := c - b; let a := a ^^^ rot c 4; let a := a + c
    ⟨a, b, c⟩

/-- `final` in reverse. -/
def unfinal : State → State
  | ⟨a, b, c⟩ =>
    let c := c + rot b 24; let c := c ^^^ b
    let b := b + rot a 14; let b := b ^^^ a
    let a := a + rot c 4; let a := a ^^^ c
    let c := c + rot b 16; let c := c ^^^ b
    let b := b + rot a 25; let b := b ^^^ a
    let a := a + rot c 11; let a := a ^^^ c
    let c := c + rot b 14; let c := c ^^^ b
    ⟨a, b, c⟩

section
variable {s : State} {key : List UInt8}

/-- A word that was added to twice over, each time with what the other line of code took. -/
theorem xor_twice (x y : Word) : x ^^^ y ^^^ y = x := by
  rw [BitVec.xor_assoc, BitVec.xor_self, BitVec.xor_zero]

theorem unmix_mix : LeftInverse unmix mix := by
  rintro ⟨a, b, c⟩
  simp only [mix, unmix, BitVec.add_sub_cancel, xor_twice, BitVec.sub_add_cancel]

theorem mix_unmix : RightInverse unmix mix := by
  rintro ⟨a, b, c⟩
  simp only [mix, unmix, BitVec.add_sub_cancel, xor_twice, BitVec.sub_add_cancel]

theorem unfinal_final : LeftInverse unfinal final := by
  rintro ⟨a, b, c⟩
  simp only [final, unfinal, BitVec.sub_add_cancel, xor_twice]

theorem final_unfinal : RightInverse unfinal final := by
  rintro ⟨a, b, c⟩
  simp only [final, unfinal, BitVec.add_sub_cancel, xor_twice]

theorem mix_bijective : Bijective mix := bijective_iff_has_inverse.mpr ⟨unmix, unmix_mix, mix_unmix⟩

theorem final_bijective : Bijective final := bijective_iff_has_inverse.mpr ⟨unfinal, unfinal_final, final_unfinal⟩

theorem addTo_bijective (lane : Nat) (value : Word) : Bijective fun s => addTo s lane value := by
  refine bijective_iff_has_inverse.mpr ⟨fun s => addTo s lane (-value), fun s => ?_, fun s => ?_⟩
  · change addTo (addTo s lane value) lane (-value) = s
    rw [addTo_add, BitVec.add_right_neg]
    exact addTo_zero s lane
  · change addTo (addTo s lane (-value)) lane value = s
    rw [addTo_add, BitVec.add_left_neg]
    exact addTo_zero s lane

theorem absorbAt_bijective (i : Nat) (bytes : List UInt8) : Bijective fun s => absorbAt s i bytes := by
  induction bytes generalizing i with
  | nil => exact bijective_id
  | cons byte rest ih => exact (ih (i + 1)).comp (addTo_bijective _ _)

theorem finish_bijective (rest : List UInt8) : Bijective fun s => finish s rest := by
  by_cases empty : rest = []
  · simp only [finish, if_pos empty]
    exact bijective_id
  · simp only [finish, if_neg empty]
    exact final_bijective.comp (absorbAt_bijective 0 rest)

theorem parts (block : List UInt8) : block.take 4 ++ ((block.drop 4).take 4 ++ block.drop 8) = block := by
  have rest := List.take_append_drop 4 (block.drop 4)
  rw [List.drop_drop] at rest
  rw [rest, List.take_append_drop]

theorem absorbAt_block (s : State) {block : List UInt8} (size : block.length = 12) :
    absorbAt s 0 block = ⟨s.a + word (block.take 4), s.b + word ((block.drop 4).take 4), s.c + word (block.drop 8)⟩ := by
  have split := (parts block).symm
  have first : (block.take 4).length = 4 := by
    rw [List.length_take]
    omega
  have second : ((block.drop 4).take 4).length = 4 := by
    rw [List.length_take, List.length_drop]
    omega
  have third : (block.drop 8).length = 4 := by
    rw [List.length_drop]
    omega
  rw [split, absorbAt_append, absorbAt_append, first, second, absorbAt_word s (by omega),
    absorbAt_word _ (by omega), absorbAt_word _ (by omega), ← split]
  simp [addTo]

theorem absorb_injective (s : State) : Injective fun block : Fin 12 → UInt8 => absorbAt s 0 (List.ofFn block) := by
  intro first second same
  simp only [absorbAt_block s (List.length_ofFn), State.mk.injEq, BitVec.add_right_inj] at same
  obtain ⟨a, b, c⟩ := same
  have front := word_injective (by simp) (by simp) a
  have middle := word_injective (by simp) (by simp) b
  have back := word_injective (by simp) (by simp) c
  apply List.ofFn_injective
  rw [← parts (List.ofFn first), front, middle, back, parts]

def State.words : State ≃ Word × Word × Word where
  toFun s := (s.a, s.b, s.c)
  invFun words := ⟨words.1, words.2.1, words.2.2⟩
  left_inv _ := rfl
  right_inv _ := rfl

instance : Fintype State := Fintype.ofEquiv _ State.words.symm

theorem absorb_bijective (s : State) : Bijective fun block : Fin 12 → UInt8 => absorbAt s 0 (List.ofFn block) := by
  apply (Fintype.bijective_iff_injective_and_card _).mpr
  refine ⟨absorb_injective s, ?_⟩
  rw [Fintype.card_fun, Fintype.card_fin, Fintype.card_congr State.words, Fintype.card_prod, Fintype.card_prod,
    ← FinEnum.card_eq_fintypeCard, ← FinEnum.card_eq_fintypeCard]
  rfl

/-- The states with a given last word. -/
def withLast (h : Word) : {s : State // s.c = h} ≃ Word × Word where
  toFun s := (s.1.a, s.1.b)
  invFun words := ⟨⟨words.1, words.2, h⟩, rfl⟩
  left_inv := by
    rintro ⟨⟨a, b, c⟩, rfl⟩
    rfl
  right_inv _ := rfl

/-- With everything else in the key fixed, each hash comes from 2 ^ 64 of the 2 ^ 96 values of a block. -/
theorem hashlittle_balanced {front back : List UInt8} {j : Nat} (blocks : front.length = 12 * j) (h : Word) :
    Nat.card {block : Fin 12 → UInt8 // hashlittle (front ++ List.ofFn block ++ back) = h} = 2 ^ 64 := by
  have lengths : ∀ block : Fin 12 → UInt8,
      (front ++ List.ofFn block ++ back).length = front.length + 12 + back.length := by
    intro block
    rw [List.length_append, List.length_append, List.length_ofFn]
  have whole : Bijective fun block : Fin 12 → UInt8 =>
      digest (start (front.length + 12 + back.length)) (front ++ List.ofFn block ++ back) := by
    refine Blockwise.digest_block_bijective (by decide) ?_ finish_bijective ?_ ?_ _ blocks (by decide)
    · exact fun block => mix_bijective.comp (absorbAt_bijective 0 block)
    · exact fun s => mix_bijective.comp (absorb_bijective s)
    · intro s nothing
      rw [List.eq_nil_of_length_eq_zero (show back.length = 0 by omega)]
      have same : (fun block : Fin 12 → UInt8 => finish s (List.ofFn block ++ [])) =
          final ∘ fun block => absorbAt s 0 (List.ofFn block) := by
        funext block
        rw [List.append_nil, finish, if_neg (List.ne_nil_of_length_pos (by simp))]
        rfl
      rw [same]
      exact final_bijective.comp (absorb_bijective s)
  have hash : ∀ block : Fin 12 → UInt8, hashlittle (front ++ List.ofFn block ++ back) = h ↔
      (Equiv.ofBijective _ whole block).c = h := by
    intro block
    rw [hashlittle, lengths]
    rfl
  have fibre : {block : Fin 12 → UInt8 // hashlittle (front ++ List.ofFn block ++ back) = h} ≃
      {s : State // s.c = h} := (Equiv.ofBijective _ whole).subtypeEquiv hash
  rw [Nat.card_congr (fibre.trans (withLast h)), Nat.card_prod, Nat.card_eq_fintype_card,
    ← FinEnum.card_eq_fintypeCard]
  rfl

/-- Whatever is in memory, wherever the key is, and in every build, each hash comes from 2 ^ 64 values of
any block of 12 bytes of the key. -/
theorem jenkinsHash_balanced (memory : Memory) (valgrind : Bool) {key length j : Nat}
    (readable : memory.Readable key (span valgrind key length)) (inside : 12 * j + 12 ≤ length) (h : Word) :
    Nat.card {block : Fin 12 → UInt8 //
      jenkinsHash (memory.store (key + 12 * j) (List.ofFn block)) valgrind key length = some h} = 2 ^ 64 := by
  let rest := length - (12 * j + 12)
  have hashes : ∀ block : Fin 12 → UInt8,
      jenkinsHash (memory.store (key + 12 * j) (List.ofFn block)) valgrind key length = some h ↔
        hashlittle (memory.bytes key (12 * j) ++ List.ofFn block ++ memory.bytes (key + 12 * j + 12) rest) = h := by
    intro block
    rw [jenkinsHash_eq_some, bytes_store_ofFn memory key (12 * j) inside]
    exact and_iff_right readable
  rw [Nat.card_congr (Equiv.subtypeEquivRight hashes)]
  exact hashlittle_balanced length_bytes h

end

theorem jenkinsHash_balanced_second :
    Nat.card {block : Fin 12 → UInt8 //
      jenkinsHash ((holding 7 [1, 2, 3]).store (7 + 12 * 1) (List.ofFn block)) false 7 30 = some 5} = 2 ^ 64 :=
  jenkinsHash_balanced (holding 7 [1, 2, 3]) false (by decide) (by decide) 5

end EasyStressTest.JenkinsBalance
