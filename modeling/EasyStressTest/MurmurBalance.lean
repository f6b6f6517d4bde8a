import EasyStressTest.MurmurPaths

/-!
The steps of the two murmur hashes lose nothing, and a block has as many values as there are hashes:
with the rest of the key fixed, every hash comes from exactly one value of each block.
-/

namespace EasyStressTest.MurmurBalance
open Function Words LittleEndian MurmurHash MurmurPaths

section
variable {memory : Memory} {key length n j : Nat} {front back first second : List UInt8} {h : Word}

theorem fmix32_bijective : Bijective fmix32 := by
  have shift16 : Injective fun h : Word => xorShift h 16 := xorShift_injective (by decide)
  have shift13 : Injective fun h : Word => xorShift h 13 := xorShift_injective (by decide)
  have times1 : Injective fun h : Word => h * 0x85ebca6b := mul_injective (by decide)
  have times2 : Injective fun h : Word => h * 0xc2b2ae35 := mul_injective (by decide)
  have injective : Injective fmix32 := shift16.comp (times2.comp (shift13.comp (times1.comp shift16)))
  exact Finite.injective_iff_bijective.mp injective

theorem scramble_injective {c1 c2 : Word} {r : Nat} (first : c1.toNat % 2 = 1) (second : c2.toNat % 2 = 1)
    (fits : r ≤ 32) : Injective (scramble c1 r c2) :=
  (mul_injective second).comp ((rotl_injective fits).comp (mul_injective first))

/-- The end of a turn for one word of the state. -/
theorem turn_injective {r : Nat} (fits : r ≤ 32) (term added : Word) :
    Injective fun h1 : Word => (rotl32 h1 r + term) * 5 + added :=
  (add_injective added).comp ((mul_injective (by decide)).comp ((add_injective term).comp (rotl_injective fits)))

/-! 32 bits. -/

theorem mixIn_injective : Injective fun h1 : Word => rotl32 h1 13 * 5 + 0xe6546b64 :=
  (add_injective 0xe6546b64).comp ((mul_injective (by decide)).comp (rotl_injective (by decide)))

theorem mixIn_bijective (block : List UInt8) : Bijective fun h1 => mixIn h1 block :=
  Finite.injective_iff_bijective.mp (mixIn_injective.comp (xor_injective _))

theorem joinWord_bijective (words : Nat → Word) : Bijective (joinWord words) :=
  Finite.injective_iff_bijective.mp (xor_injective _)

theorem mixIn_block_bijective (h1 : Word) : Bijective fun block : Fin 4 → UInt8 => mixIn h1 (List.ofFn block) := by
  have scrambled : Injective (scramble c1 15 c2) := scramble_injective (by decide) (by decide) (by decide)
  have turns : Injective fun k1 => rotl32 (h1 ^^^ scramble c1 15 c2 k1) 13 * 5 + 0xe6546b64 :=
    mixIn_injective.comp ((xorOnto_injective h1).comp scrambled)
  exact (Finite.injective_iff_bijective.mp turns).comp word_ofFn_bijective

theorem murmur3_block_bijective (length : Word) (blocks : front.length = 4 * j) :
    Bijective fun block : Fin 4 → UInt8 => murmur3 length (front ++ List.ofFn block ++ back) := by
  have whole : Bijective fun block : Fin 4 → UInt8 =>
      Blockwise.digest 4 0 mixIn finish32 0 (front ++ List.ofFn block ++ back) :=
    Blockwise.digest_block_bijective (by decide) mixIn_bijective (fun rest => joinWord_bijective (piece rest))
      mixIn_block_bijective (fun _ nothing => absurd nothing (Nat.not_lt_zero _)) 0 blocks (by decide)
  have with_length : Bijective fun h1 : Word => h1 ^^^ length := Finite.injective_iff_bijective.mp (xor_injective length)
  exact fmix32_bijective.comp (with_length.comp whole)

/-- Among the bytes that are hashed, each block of 4 decides the hash, and can give it every value. -/
theorem murmurHash3X8632_block (memory : Memory) {key length n j : Nat} (hashes : hashed length = some n)
    (loads : Loads memory key) (readable : memory.Readable key n) (inside : 4 * j + 4 ≤ n) (h : Word) :
    ∃! block : Fin 4 → UInt8,
      murmurHash3X8632 (memory.store (key + 4 * j) (List.ofFn block)) key length = some h := by
  let rest := n - (4 * j + 4)
  have hash : ∀ block : Fin 4 → UInt8,
      murmurHash3X8632 (memory.store (key + 4 * j) (List.ofFn block)) key length = some h ↔
        murmur3 (BitVec.ofNat 32 length)
          (memory.bytes key (4 * j) ++ List.ofFn block ++ memory.bytes (key + 4 * j + 4) rest) = h := by
    intro block
    rw [murmurHash3X8632_eq_some_of _ key hashes, bytes_store_ofFn memory key (4 * j) inside]
    exact ⟨fun all => all.2.2, fun same => ⟨fun _ => loads, readable, same⟩⟩
  simp only [hash]
  exact (murmur3_block_bijective _ length_bytes).existsUnique h

end

theorem murmurHash3X8632_block_second : ∃! block : Fin 4 → UInt8,
    murmurHash3X8632 ((holding 8 [1, 2, 3]).store (8 + 4 * 1) (List.ofFn block)) 8 11 = some 5 :=
  murmurHash3X8632_block (holding 8 [1, 2, 3]) (show hashed 11 = some 11 by decide) (by decide) (by decide) (by decide) 5

/-! 128 bits. -/

section
variable {memory : Memory} {key n j : Nat} {front back first second : List UInt8} {s : Hash128}

def Hash128.words : Hash128 ≃ Word × Word × Word × Word where
  toFun s := (s.h1, s.h2, s.h3, s.h4)
  invFun words := ⟨words.1, words.2.1, words.2.2.1, words.2.2.2⟩
  left_inv _ := rfl
  right_inv _ := rfl

instance : Fintype Hash128 := Fintype.ofEquiv _ Hash128.words.symm

/-- What a turn has made of a word can be had back with the help of the word that was added to it. -/
theorem mix128_eq {k1 k2 k3 k4 l1 l2 l3 l4 : Word} {s t : Hash128}
    (same : mix128 k1 k2 k3 k4 s = mix128 l1 l2 l3 l4 t) :
    s.h4 ^^^ scramble c4x128 18 c1x128 k4 = t.h4 ^^^ scramble c4x128 18 c1x128 l4 ∧
      (s.h4 = t.h4 → s.h3 ^^^ scramble c3x128 17 c4x128 k3 = t.h3 ^^^ scramble c3x128 17 c4x128 l3) ∧
      (s.h3 = t.h3 → s.h2 ^^^ scramble c2x128 16 c3x128 k2 = t.h2 ^^^ scramble c2x128 16 c3x128 l2) ∧
      (s.h2 = t.h2 → s.h1 ^^^ scramble c1x128 15 c2x128 k1 = t.h1 ^^^ scramble c1x128 15 c2x128 l1) := by
  obtain ⟨h1, h2, h3, h4⟩ := s
  obtain ⟨g1, g2, g3, g4⟩ := t
  simp only [mix128, Hash128.mk.injEq] at same
  obtain ⟨first, second, third, fourth⟩ := same
  rw [first] at fourth
  refine ⟨turn_injective (by decide) _ _ fourth, fun next => ?_, fun next => ?_, fun next => ?_⟩
  · rw [show h4 = g4 from next] at third
    exact turn_injective (by decide) _ _ third
  · rw [show h3 = g3 from next] at second
    exact turn_injective (by decide) _ _ second
  · rw [show h2 = g2 from next] at first
    exact turn_injective (by decide) _ _ first

theorem mixIn128_bijective (block : List UInt8) : Bijective fun s => mixIn128 s block := by
  have injective : Injective fun s => mixIn128 s block := by
    intro s t same
    obtain ⟨fourth, third, second, first⟩ := mix128_eq same
    have h4_same := xor_injective _ fourth
    have h3_same := xor_injective _ (third h4_same)
    have h2_same := xor_injective _ (second h3_same)
    have h1_same := xor_injective _ (first h2_same)
    cases s
    cases t
    simp only [Hash128.mk.injEq]
    exact ⟨h1_same, h2_same, h3_same, h4_same⟩
  exact Finite.injective_iff_bijective.mp injective

theorem joinWords_bijective (words : Nat → Word) : Bijective (joinWords words) := by
  have injective : Injective (joinWords words) := by
    rintro ⟨h1, h2, h3, h4⟩ ⟨g1, g2, g3, g4⟩ same
    simpa only [joinWords, Hash128.mk.injEq, BitVec.xor_left_inj] using same
  exact Finite.injective_iff_bijective.mp injective

theorem cross_injective : Injective cross := by
  rintro ⟨h1, h2, h3, h4⟩ ⟨g1, g2, g3, g4⟩ same
  simp only [cross, Hash128.mk.injEq] at same ⊢
  obtain ⟨sum, second, third, fourth⟩ := same
  rw [sum] at second third fourth
  have h2_same := add_right_cancel second
  have h3_same := add_right_cancel third
  have h4_same := add_right_cancel fourth
  rw [h2_same, h3_same, h4_same] at sum
  exact ⟨add_right_cancel (add_right_cancel (add_right_cancel sum)), h2_same, h3_same, h4_same⟩

theorem finalize128_bijective (len : Word) : Bijective (finalize128 len) := by
  have with_length : Injective fun s : Hash128 =>
      Hash128.mk (s.h1 ^^^ len) (s.h2 ^^^ len) (s.h3 ^^^ len) (s.h4 ^^^ len) := by
    rintro ⟨h1, h2, h3, h4⟩ ⟨g1, g2, g3, g4⟩ same
    simpa only [Hash128.mk.injEq, BitVec.xor_left_inj] using same
  have mixed : Injective fun s : Hash128 =>
      Hash128.mk (fmix32 s.h1) (fmix32 s.h2) (fmix32 s.h3) (fmix32 s.h4) := by
    rintro ⟨h1, h2, h3, h4⟩ ⟨g1, g2, g3, g4⟩ same
    simpa only [Hash128.mk.injEq, fmix32_bijective.injective.eq_iff] using same
  exact Finite.injective_iff_bijective.mp (cross_injective.comp (mixed.comp (cross_injective.comp with_length)))

theorem piece_injective (lengths : first.length = second.length) (same : ∀ lane, piece first lane = piece second lane) :
    first = second := by
  apply List.ext_getElem lengths
  intro i inside _
  have words : (first.drop (4 * (i / 4))).take 4 = (second.drop (4 * (i / 4))).take 4 :=
    word_injective (by simp [lengths]) (by simp) (same (i / 4))
  have bytes := congrArg (fun piece => piece[i % 4]?) words
  have index : 4 * (i / 4) + i % 4 = i := Nat.div_add_mod i 4
  simp only [List.getElem?_take_of_lt (show i % 4 < 4 by omega), List.getElem?_drop, index] at bytes
  rwa [List.getElem?_eq_getElem inside, List.getElem?_eq_getElem (by omega), Option.some.injEq] at bytes

theorem mixIn128_block_bijective (s : Hash128) :
    Bijective fun block : Fin 16 → UInt8 => mixIn128 s (List.ofFn block) := by
  have injective : Injective fun block : Fin 16 → UInt8 => mixIn128 s (List.ofFn block) := by
    intro one other same
    obtain ⟨fourth, third, second, first⟩ := mix128_eq same
    have scramble1 : Injective (scramble c1x128 15 c2x128) := scramble_injective (by decide) (by decide) (by decide)
    have scramble2 : Injective (scramble c2x128 16 c3x128) := scramble_injective (by decide) (by decide) (by decide)
    have scramble3 : Injective (scramble c3x128 17 c4x128) := scramble_injective (by decide) (by decide) (by decide)
    have scramble4 : Injective (scramble c4x128 18 c1x128) := scramble_injective (by decide) (by decide) (by decide)
    apply List.ofFn_injective
    apply piece_injective (by rw [List.length_ofFn, List.length_ofFn])
    intro lane
    match lane with
    | 0 => exact scramble1 (xorOnto_injective _ (first rfl))
    | 1 => exact scramble2 (xorOnto_injective _ (second rfl))
    | 2 => exact scramble3 (xorOnto_injective _ (third rfl))
    | 3 => exact scramble4 (xorOnto_injective _ fourth)
    | beyond + 4 => rw [piece_beyond (by rw [List.length_ofFn]; omega), piece_beyond (by rw [List.length_ofFn]; omega)]
  apply (Fintype.bijective_iff_injective_and_card _).mpr
  apply And.intro injective
  rw [Fintype.card_fun, Fintype.card_fin, Fintype.card_congr Hash128.words, Fintype.card_prod, Fintype.card_prod,
    Fintype.card_prod, ← FinEnum.card_eq_fintypeCard, ← FinEnum.card_eq_fintypeCard]
  rfl

theorem murmur3x128_block_bijective (length seed : Word) (blocks : front.length = 16 * j) :
    Bijective fun block : Fin 16 → UInt8 => murmur3x128 length seed (front ++ List.ofFn block ++ back) := by
  have whole : Bijective fun block : Fin 16 → UInt8 =>
      Blockwise.digest 16 0 mixIn128 finish128 ⟨seed, seed, seed, seed⟩
        (front ++ List.ofFn block ++ back) :=
    Blockwise.digest_block_bijective (by decide) mixIn128_bijective (fun rest => joinWords_bijective (piece rest))
      mixIn128_block_bijective (fun _ nothing => absurd nothing (Nat.not_lt_zero _)) _ blocks (by decide)
  exact (finalize128_bijective length).comp whole

/-- Among the bytes that are hashed, each block of 16 decides the hash, and can give it every value. -/
theorem murmurHash3X86128_block (memory : Memory) {key n j : Nat} {len : Int32} (hashes : hashed128 len = some n)
    (loads : Loads memory key) (readable : memory.Readable key n) (inside : 16 * j + 16 ≤ n) (seed : Word)
    (h : Hash128) : ∃! block : Fin 16 → UInt8,
      murmurHash3X86128 (memory.store (key + 16 * j) (List.ofFn block)) key len seed = some h := by
  let rest := n - (16 * j + 16)
  have hash : ∀ block : Fin 16 → UInt8,
      murmurHash3X86128 (memory.store (key + 16 * j) (List.ofFn block)) key len seed = some h ↔
        murmur3x128 len.toBitVec seed
          (memory.bytes key (16 * j) ++ List.ofFn block ++ memory.bytes (key + 16 * j + 16) rest) = h := by
    intro block
    rw [murmurHash3X86128_eq_some_of _ key hashes, bytes_store_ofFn memory key (16 * j) inside]
    exact ⟨fun all => all.2.2, fun same => ⟨fun _ => loads, readable, same⟩⟩
  simp only [hash]
  exact (murmur3x128_block_bijective _ _ length_bytes).existsUnique h

end

theorem murmurHash3X86128_block_second : ∃! block : Fin 16 → UInt8,
    murmurHash3X86128 ((holding 8 [1, 2, 3]).store (8 + 16 * 1) (List.ofFn block)) 8 37 9 = some ⟨5, 6, 7, 8⟩ :=
  murmurHash3X86128_block (holding 8 [1, 2, 3]) (show hashed128 37 = some 37 by decide) (by decide) (by decide)
    (by decide) 9 ⟨5, 6, 7, 8⟩

end EasyStressTest.MurmurBalance
