import Mathlib.Data.Fintype.BigOperators
import Mathlib.Data.Nat.Digits.Defs
import EasyStressTest.Words

/-!
The memory of a little-endian machine: bytes at addresses some of which cannot be read, loads of
1, 2 and 4 bytes, and the 32-bit words that they give.
-/

namespace EasyStressTest.LittleEndian
open Function Words

abbrev Word := BitVec 32

structure Memory where
  byte : Nat → UInt8
  mapped : Nat → Bool
  /-- Whether the machine loads from addresses that are not a multiple of the size. -/
  unaligned : Bool

def Memory.bytes (memory : Memory) (address count : Nat) : List UInt8 :=
  (List.range' address count).map memory.byte

def Memory.Readable (memory : Memory) (address count : Nat) : Prop :=
  ∀ a ∈ List.range' address count, memory.mapped a = true

instance (memory : Memory) (address count : Nat) : Decidable (memory.Readable address count) :=
  inferInstanceAs (Decidable (∀ _ ∈ _, _))

/-- Addresses in one word are protected alike. -/
def Memory.WordGranular (memory : Memory) : Prop := ∀ a b, a / 4 = b / 4 → memory.mapped a = memory.mapped b

/-- The value of some bytes, of which the first weighs least. -/
def littleEndian (bytes : List UInt8) : Nat := Nat.ofDigits 256 (bytes.map UInt8.toNat)

def word (bytes : List UInt8) : Word := BitVec.ofNat 32 (littleEndian bytes)

/-- A load, widened to 32 bits. -/
def Memory.load (memory : Memory) (size address : Nat) : Option Word :=
  if (memory.unaligned = true ∨ size ∣ address) ∧ memory.Readable address size then
    some (word (memory.bytes address size))
  else none

/-- `k[i]` for an array k of elements of a size. -/
def Memory.index (memory : Memory) (size k i : Nat) : Option Word := memory.load size (k + size * i)

def Memory.store (memory : Memory) (address : Nat) (bytes : List UInt8) : Memory :=
  { memory with byte := fun a => if address ≤ a then bytes.getD (a - address) (memory.byte a) else memory.byte a }

/-- Memory that holds a key at an address, and can be read throughout. -/
def holding (address : Nat) (key : List UInt8) : Memory :=
  (Memory.mk (fun _ => 0) (fun _ => true) false).store address key

section
variable {memory : Memory} {address count size : Nat} {value : Word}

/-! Bytes and what can be read of them. -/

@[simp] theorem length_bytes : (memory.bytes address count).length = count := by
  simp [Memory.bytes]

theorem bytes_add (memory : Memory) (address first second : Nat) :
    memory.bytes address (first + second) =
      memory.bytes address first ++ memory.bytes (address + first) second := by
  rw [Memory.bytes, ← List.range'_append_1, List.map_append]
  rfl

theorem bytes_succ (memory : Memory) (address count : Nat) :
    memory.bytes address (count + 1) = memory.byte address :: memory.bytes (address + 1) count := rfl

@[simp] theorem bytes_zero (memory : Memory) (address : Nat) : memory.bytes address 0 = [] := rfl

theorem readable_add (memory : Memory) (address first second : Nat) :
    memory.Readable address (first + second) ↔
      memory.Readable address first ∧ memory.Readable (address + first) second := by
  rw [Memory.Readable, ← List.range'_append_1, List.forall_mem_append]
  rfl

theorem readable_mono {fewer : Nat} (readable : memory.Readable address count) (less : fewer ≤ count) :
    memory.Readable address fewer := by
  obtain ⟨rest, same⟩ := Nat.exists_eq_add_of_le less
  rw [same] at readable
  exact ((readable_add memory address fewer rest).mp readable).1

theorem readable_iff : memory.Readable address count ↔ ∀ i < count, memory.mapped (address + i) = true := by
  simp only [Memory.Readable, List.mem_range'_1]
  apply Iff.intro
  · exact fun all i below => all (address + i) ⟨by omega, by omega⟩
  · intro all a inside
    have found := all (a - address) (by omega)
    rwa [Nat.add_sub_cancel' inside.1] at found

/-- When words are protected as a whole, the rest of the last word can be read too. -/
theorem readable_word (granular : memory.WordGranular) (aligned : 4 ∣ address)
    (readable : memory.Readable address count) : memory.Readable address (4 * ((count + 3) / 4)) := by
  rw [readable_iff] at readable ⊢
  intro i below
  have first : 4 * (i / 4) < count := by omega
  rw [granular (address + i) (address + 4 * (i / 4)) (by omega)]
  exact readable _ first

theorem load_eq_some : memory.load size address = some value ↔
    (memory.unaligned = true ∨ size ∣ address) ∧ memory.Readable address size ∧
      word (memory.bytes address size) = value := by
  rw [Memory.load]
  by_cases allowed : (memory.unaligned = true ∨ size ∣ address) ∧ memory.Readable address size
  · rw [if_pos allowed, Option.some.injEq]
    exact ⟨fun same => ⟨allowed.1, allowed.2, same⟩, fun all => all.2.2⟩
  · rw [if_neg allowed]
    simp only [reduceCtorEq, false_iff]
    exact fun all => allowed ⟨all.1, all.2.1⟩

/-- A load from an address that the machine can load from. -/
theorem index_eq_some {k i : Nat} (aligned : size ∣ k) : memory.index size k i = some value ↔
    memory.Readable (k + size * i) size ∧ word (memory.bytes (k + size * i) size) = value := by
  rw [Memory.index, load_eq_some]
  exact and_iff_right (Or.inr ((Nat.dvd_add_right aligned).mpr (Nat.dvd_mul_right size i)))

/-! Stores. -/

theorem bytes_congr {other : Memory} (same : ∀ a, address ≤ a → a < address + count → memory.byte a = other.byte a) :
    memory.bytes address count = other.bytes address count := by
  apply List.map_congr_left
  intro a inside
  rw [List.mem_range'_1] at inside
  exact same a inside.1 inside.2

theorem store_before {a : Nat} (block : List UInt8) (before : a < address) :
    (memory.store address block).byte a = memory.byte a := if_neg (by omega)

theorem store_after {a : Nat} {block : List UInt8} (after : address + block.length ≤ a) :
    (memory.store address block).byte a = memory.byte a := by
  have beyond : block.length ≤ a - address := by omega
  have stored : (memory.store address block).byte a = block.getD (a - address) (memory.byte a) := if_pos (by omega)
  rw [stored, List.getD_eq_getElem?_getD, List.getElem?_eq_none beyond]
  rfl

theorem store_inside (memory : Memory) (address : Nat) (block : List UInt8) :
    (memory.store address block).bytes address block.length = block := by
  apply List.ext_getElem (by simp)
  intro i _ inside
  have there : (memory.store address block).byte (address + i) = block.getD i (memory.byte (address + i)) := by
    simp [Memory.store]
  simp only [Memory.bytes, List.getElem_map, List.getElem_range', Nat.one_mul, there]
  rw [List.getD_eq_getElem?_getD, List.getElem?_eq_getElem inside]
  rfl

/-- A key in which some bytes are replaced. -/
theorem bytes_store (memory : Memory) (key i rest : Nat) (block : List UInt8) :
    (memory.store (key + i) block).bytes key (i + block.length + rest) =
      memory.bytes key i ++ block ++ memory.bytes (key + i + block.length) rest := by
  rw [bytes_add, bytes_add, store_inside]
  congr 1
  · congr 1
    exact bytes_congr fun a _ below => store_before block below
  · rw [← Nat.add_assoc]
    exact bytes_congr fun a above _ => store_after above

theorem bytes_store_ofFn (memory : Memory) (key i : Nat) {size count : Nat} (inside : i + size ≤ count)
    (block : Fin size → UInt8) : (memory.store (key + i) (List.ofFn block)).bytes key count =
      memory.bytes key i ++ List.ofFn block ++ memory.bytes (key + i + size) (count - (i + size)) := by
  have stored := bytes_store memory key i (count - (i + size)) (List.ofFn block)
  rwa [List.length_ofFn, Nat.add_sub_of_le inside] at stored

/-! Words. -/

theorem littleEndian_cons (byte : UInt8) (rest : List UInt8) :
    littleEndian (byte :: rest) = byte.toNat + 256 * littleEndian rest := by
  rw [littleEndian, List.map_cons, Nat.ofDigits_cons]
  rfl

theorem littleEndian_append (first second : List UInt8) :
    littleEndian (first ++ second) = littleEndian first + 256 ^ first.length * littleEndian second := by
  rw [littleEndian, List.map_append, Nat.ofDigits_append, List.length_map]
  rfl

theorem littleEndian_lt (bytes : List UInt8) : littleEndian bytes < 256 ^ bytes.length := by
  rw [littleEndian, ← List.length_map UInt8.toNat]
  apply Nat.ofDigits_lt_base_pow_length (by decide)
  intro digit member
  obtain ⟨byte, _, same⟩ := List.mem_map.mp member
  rw [← same]
  exact byte.toNat_lt

theorem littleEndian_injective {first second : List UInt8} (lengths : first.length = second.length)
    (same : littleEndian first = littleEndian second) : first = second := by
  have digits : ∀ bytes : List UInt8, ∀ digit ∈ bytes.map UInt8.toNat, digit < 256 := by
    intro bytes digit member
    obtain ⟨byte, _, own⟩ := List.mem_map.mp member
    rw [← own]
    exact byte.toNat_lt
  have values := Nat.ofDigits_inj_of_len_eq (by decide) (by simpa using lengths) (digits first) (digits second) same
  exact List.map_injective_iff.mpr (fun _ _ equal => UInt8.toNat_inj.mp equal) values

theorem word_cons (byte : UInt8) (rest : List UInt8) : word (byte :: rest) = word [byte] + word rest <<< 8 := by
  apply BitVec.eq_of_toNat_eq
  simp only [word, littleEndian_cons, BitVec.toNat_add, BitVec.toNat_shiftLeft, BitVec.toNat_ofNat,
    Nat.shiftLeft_eq]
  simp only [littleEndian, List.map_nil, Nat.ofDigits_nil]
  omega

/-- The low bytes of a word. -/
theorem word_masked (low high : List UInt8) (few : low.length ≤ 4) :
    word (low ++ high) &&& BitVec.ofNat 32 (256 ^ low.length - 1) = word low := by
  apply BitVec.eq_of_toNat_eq
  have small : 256 ^ low.length ≤ 2 ^ 32 := by
    calc 256 ^ low.length ≤ 256 ^ 4 := Nat.pow_le_pow_right (by decide) few
      _ = 2 ^ 32 := by decide
  have positive : 0 < 256 ^ low.length := Nat.pow_pos (by decide)
  have power : 256 ^ low.length = 2 ^ (8 * low.length) := by rw [Nat.pow_mul]
  have bound := littleEndian_lt low
  rw [word, word, BitVec.toNat_and, BitVec.toNat_ofNat, BitVec.toNat_ofNat, BitVec.toNat_ofNat,
    Nat.mod_eq_of_lt (show 256 ^ low.length - 1 < 2 ^ 32 by omega), power, Nat.and_two_pow_sub_one_eq_mod,
    ← power, littleEndian_append, Nat.mod_mod_of_dvd, Nat.add_mul_mod_self_left, Nat.mod_eq_of_lt bound,
    Nat.mod_eq_of_lt (by omega)]
  rw [power]
  exact Nat.pow_dvd_pow 2 (by omega)

/-- The bytes of a word do not meet, so they can as well be joined by an exclusive OR. -/
theorem word_cons_xor (byte : UInt8) (rest : List UInt8) :
    word (byte :: rest) = word [byte] ^^^ word rest <<< 8 := by
  have apart : word [byte] &&& word rest <<< 8 = 0#32 := by
    apply BitVec.eq_of_getLsbD_eq
    intro i inside
    rw [BitVec.getLsbD_and, BitVec.getLsbD_shiftLeft, BitVec.getLsbD_zero]
    by_cases low : i < 8
    · simp [low]
    · have small : byte.toNat < 2 ^ i :=
        Nat.lt_of_lt_of_le byte.toNat_lt (Nat.pow_le_pow_right (by decide) (by omega))
      have clear : (word [byte]).getLsbD i = false := by
        simp only [word, littleEndian_cons, BitVec.getLsbD_ofNat]
        simp [littleEndian, Nat.testBit_lt_two_pow small]
      rw [clear, Bool.false_and]
  rw [word_cons, BitVec.add_eq_or_of_and_eq_zero _ _ apart]
  apply BitVec.eq_of_getLsbD_eq
  intro i _
  have bits := congrArg (fun x : Word => x.getLsbD i) apart
  simp only [BitVec.getLsbD_and, BitVec.getLsbD_zero] at bits
  rw [BitVec.getLsbD_or, BitVec.getLsbD_xor]
  revert bits
  cases (word [byte]).getLsbD i <;> cases (word rest <<< 8).getLsbD i <;> decide

theorem word_snoc_xor (bytes : List UInt8) (byte : UInt8) :
    word (bytes ++ [byte]) = word bytes ^^^ word [byte] <<< (8 * bytes.length) := by
  induction bytes with
  | nil =>
    have nothing : word [] = 0#32 := rfl
    rw [List.nil_append, nothing, BitVec.zero_xor]
    exact (BitVec.shiftLeft_zero (word [byte])).symm
  | cons first rest ih =>
    rw [List.cons_append, word_cons_xor, ih, word_cons_xor first rest, BitVec.shiftLeft_xor_distrib,
      ← BitVec.shiftLeft_add, BitVec.xor_assoc, List.length_cons, Nat.mul_succ]

theorem word_injective {first second : List UInt8} (lengths : first.length = second.length)
    (few : first.length ≤ 4) (same : word first = word second) : first = second := by
  have small : ∀ bytes : List UInt8, bytes.length ≤ 4 → littleEndian bytes < 2 ^ 32 := by
    intro bytes short
    calc littleEndian bytes < 256 ^ bytes.length := littleEndian_lt bytes
      _ ≤ 256 ^ 4 := Nat.pow_le_pow_right (by decide) short
      _ = 2 ^ 32 := by decide
  have values := congrArg BitVec.toNat same
  rw [word, word, BitVec.toNat_ofNat, BitVec.toNat_ofNat, Nat.mod_eq_of_lt (small first few),
    Nat.mod_eq_of_lt (small second (by omega))] at values
  exact littleEndian_injective lengths values

/-- Four bytes are a word. -/
theorem word_ofFn_bijective : Bijective fun block : Fin 4 → UInt8 => word (List.ofFn block) := by
  apply (Fintype.bijective_iff_injective_and_card _).mpr
  apply And.intro
  · intro first second same
    exact List.ofFn_injective (word_injective (by simp) (by simp) same)
  · rw [Fintype.card_fun, Fintype.card_fin, ← FinEnum.card_eq_fintypeCard, ← FinEnum.card_eq_fintypeCard]
    rfl

end

end EasyStressTest.LittleEndian
