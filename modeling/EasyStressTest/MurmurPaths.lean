import Mathlib.Tactic.IntervalCases
import EasyStressTest.Blockwise
import EasyStressTest.MurmurHash

/-!
What the two murmur hashes make of the bytes of a key, and when they return at all: the loop over
the blocks and the switch behind it get every byte of the key once.
-/

namespace EasyStressTest.MurmurPaths
open Words LittleEndian MurmurHash

/-- Bytes of a key in words, the last of which may be short or empty. -/
def piece (bytes : List UInt8) (lane : Nat) : Word := word ((bytes.drop (4 * lane)).take 4)

def only (lane : Nat) (value : Word) : Nat → Word := fun other => if other = lane then value else 0

section
variable {State : Type} {memory : Memory} {key base k m size rest : Nat} {s t : State} {can : Prop}
  {turnAt : Int → State → Option State} {turn last : State → List UInt8 → State} {tailAt : State → Option State}

/-! The loop over the blocks. -/

/-- A count that starts above 0 overflows. -/
theorem forBlocks_none {i : Int} (above : 0 < i) (s : State) : forBlocks turnAt i s = none := by
  induction turns : (2 ^ 31 - 1 - i).toNat using Nat.strong_induction_on generalizing i s with
  | _ n ih =>
    rw [forBlocks, if_neg (by omega), Option.bind_eq_bind, Option.bind_eq_none_iff]
    intro next _
    by_cases ends : 2 ^ 31 - 1 ≤ i
    · rw [if_pos ends]
    · rw [if_neg ends]
      exact ih (2 ^ 31 - 1 - (i + 1)).toNat (by omega) (by omega) next rfl

theorem forBlocks_zero (s : State) : forBlocks turnAt 0 s = some s := by
  rw [forBlocks, if_pos rfl]

theorem forBlocks_succ (m : Nat) (s : State) : forBlocks turnAt (-(m + 1 : Nat)) s =
    (turnAt (-(m + 1 : Nat)) s).bind fun next => forBlocks turnAt (-m) next := by
  have next_count : (-(m + 1 : Nat) : Int) + 1 = -m := by omega
  have below : ¬(2 ^ 31 - 1 : Int) ≤ -(m + 1 : Nat) := by omega
  rw [forBlocks, if_neg (by omega), Option.bind_eq_bind]
  congr 1
  funext next
  rw [if_neg below, next_count]

/-- The loop and the switch after it take in the bytes of the key. -/
theorem blocks_eq_some (positive : 0 < size)
    (turns : ∀ k m s t, base = k + size * (m + 1) → (turnAt (-(m + 1 : Nat)) s = some t ↔
      can ∧ memory.Readable k size ∧ turn s (memory.bytes k size) = t))
    (tails : ∀ s t, tailAt s = some t ↔ memory.Readable base rest ∧ last s (memory.bytes base rest) = t)
    (few : rest < size) (s t : State) (here : base = k + size * m) :
    (forBlocks turnAt (-m) s).bind tailAt = some t ↔
      (0 < m → can) ∧ memory.Readable k (size * m + rest) ∧
        Blockwise.digest size 0 turn last s (memory.bytes k (size * m + rest)) = t := by
  induction m generalizing k s with
  | zero =>
    rw [Nat.mul_zero, Nat.add_zero] at here
    subst here
    have begins : forBlocks turnAt (-(0 : Nat)) s = some s := forBlocks_zero s
    rw [begins, Option.bind_some, tails, Nat.mul_zero, Nat.zero_add, Blockwise.digest_last (by simpa using few)]
    simp
  | succ m ih =>
    have later : base = k + size + size * m := by
      rw [here, Nat.mul_succ]
      omega
    have split : size * (m + 1) + rest = size + (size * m + rest) := by
      rw [Nat.mul_succ]
      omega
    have front : ∀ next, turnAt (-(m + 1 : Nat)) s = some next ↔ _ := fun next => turns k m s next here
    have goes_on : ∀ next, (forBlocks turnAt (-m) next).bind tailAt = some t ↔ _ := fun next => ih next later
    rw [forBlocks_succ, Option.bind_assoc, Option.bind_eq_some_iff, split, readable_add, bytes_add,
      Blockwise.digest_cons positive s length_bytes (Nat.zero_le _)]
    simp only [front, goes_on]
    apply Iff.intro
    · rintro ⟨_, ⟨allowed, first, rfl⟩, _, following, same⟩
      exact ⟨fun _ => allowed, ⟨first, following⟩, same⟩
    · rintro ⟨allowed, ⟨first, following⟩, same⟩
      exact ⟨_, ⟨allowed (by omega), first, rfl⟩, fun _ => allowed (by omega), following, same⟩

/-! The switch. Its cases get the rest of the key from the end to the front. -/

theorem piece_nil (lane : Nat) : piece [] lane = 0 := by
  rw [piece, List.drop_nil, List.take_nil]
  rfl

theorem piece_beyond {bytes : List UInt8} {lane : Nat} (beyond : bytes.length ≤ 4 * lane) : piece bytes lane = 0 := by
  rw [piece, List.drop_of_length_le beyond, List.take_nil]
  rfl

theorem xor_nothing (value : Word) : value ^^^ 0 = value := BitVec.xor_zero

theorem only_nothing (lane other : Nat) : only lane 0 other = 0 := ite_self 0

theorem only_apart {lane other : Nat} (apart : other ≠ lane) (value : Word) : only lane value other = 0 := if_neg apart

theorem only_xor (lane : Nat) (value byte : Word) (other : Nat) :
    only lane (value ^^^ byte) other = only lane byte other ^^^ only lane value other := by
  by_cases here : other = lane
  · rw [only, only, only, if_pos here, if_pos here, if_pos here, BitVec.xor_comm]
  · rw [only_apart here, only_apart here, only_apart here, xor_nothing]

theorem piece_snoc (bytes : List UInt8) (byte : UInt8) (lane : Nat) : piece (bytes ++ [byte]) lane =
    piece bytes lane ^^^ only (bytes.length / 4) (word [byte] <<< (8 * (bytes.length % 4))) lane := by
  by_cases before : bytes.length < 4 * lane
  · rw [piece_beyond (by rw [List.length_append, List.length_singleton]; omega), piece_beyond (by omega),
      only_apart (by omega), xor_nothing]
  · rw [piece, List.drop_append_of_le_length (by omega)]
    by_cases here : bytes.length < 4 * lane + 4
    · have short : (bytes.drop (4 * lane)).length = bytes.length % 4 := by
        rw [List.length_drop]
        omega
      rw [List.take_of_length_le (by rw [List.length_append, short, List.length_singleton]; omega), word_snoc_xor,
        short, piece, List.take_of_length_le (by omega), only, if_pos (by omega)]
    · rw [List.take_append_of_le_length (by rw [List.length_drop]; omega), only_apart (by omega), xor_nothing]
      rfl

/-- It is the same whether a byte is in the last word of the key or in the word that joins it. -/
theorem piece_byte (memory : Memory) (k count : Nat) (value : Word) (lane : Nat) :
    piece (memory.bytes k count) lane ^^^
        only (count / 4) (value ^^^ word [memory.byte (k + count)] <<< (8 * (count % 4))) lane =
      piece (memory.bytes k (count + 1)) lane ^^^ only (count / 4) value lane := by
  have snoc : memory.bytes k (count + 1) = memory.bytes k count ++ [memory.byte (k + count)] :=
    bytes_add memory k count 1
  rw [snoc, piece_snoc, length_bytes, only_xor, BitVec.xor_assoc]

/-- A case that begins with all that it is to join. -/
def Joins (memory : Memory) (k : Nat) (join : (Nat → Word) → State → State) (count : Nat)
    (act : State → Option State) : Prop :=
  ∀ s t, act s = some t ↔ memory.Readable k count ∧ join (piece (memory.bytes k count)) s = t

/-- A case that begins with a word of which the part behind it is there already. -/
def Gathers (memory : Memory) (k : Nat) (join : (Nat → Word) → State → State) (count : Nat)
    (act : Word → State → Option State) : Prop :=
  ∀ value s t, act value s = some t ↔ memory.Readable k count ∧
    join (fun lane => piece (memory.bytes k count) lane ^^^ only ((count - 1) / 4) value lane) s = t

section
variable {join : (Nat → Word) → State → State} {count : Nat} {act next : Word → State → Option State}

theorem Gathers.joins (gathers : Gathers memory k join count act) : Joins memory k join count (act 0) := by
  intro s t
  rw [gathers 0 s t]
  simp only [only_nothing, xor_nothing]

theorem joins_nothing (same : ∀ s, join (fun _ => 0) s = s) : Joins memory k join 0 some := by
  intro s t
  have empty : piece (memory.bytes k 0) = fun _ => 0 := funext piece_nil
  rw [empty, same]
  simp [Memory.Readable]

/-- A byte that is got before those in front of it. -/
theorem index_bind {earlier : Word → Option State} {result : State}
    (rest : earlier (word [memory.byte (k + count)]) = some t ↔ memory.Readable k count ∧ result = t) :
    (memory.index 1 k count).bind earlier = some t ↔ memory.Readable k (count + 1) ∧ result = t := by
  have index_byte : ∀ byte, memory.index 1 k count = some byte ↔ _ := fun byte => index_eq_some (Nat.one_dvd k)
  have got : memory.bytes (k + 1 * count) 1 = [memory.byte (k + count)] := by
    rw [Nat.one_mul]
    rfl
  simp only [Option.bind_eq_some_iff, index_byte, got]
  rw [readable_add, Nat.one_mul]
  apply Iff.intro
  · rintro ⟨_, ⟨here, rfl⟩, last_ends⟩
    obtain ⟨earlier_bytes, same⟩ := rest.mp last_ends
    exact ⟨⟨earlier_bytes, here⟩, same⟩
  · rintro ⟨⟨earlier_bytes, here⟩, same⟩
    exact ⟨_, ⟨here, rfl⟩, rest.mpr ⟨earlier_bytes, same⟩⟩

/-- One more byte of the same word. -/
theorem Gathers.more (gathers : Gathers memory k join count act) (within : count % 4 ≠ 0)
    (same : ∀ value s, next value s =
      (memory.index 1 k count).bind fun byte => act (value ^^^ byte <<< (8 * (count % 4))) s) :
    Gathers memory k join (count + 1) next := by
  intro value s t
  have lane : (count - 1) / 4 = count / 4 := by omega
  rw [same, Nat.add_sub_cancel]
  apply index_bind
  rw [gathers, lane]
  simp only [piece_byte]

/-- The first byte of a word, with which the word is complete. -/
theorem Joins.more {before : State → Option State} {put : Word → State → State} {part : Word → Word}
    (joins : Joins memory k join count before) (starts : count % 4 = 0)
    (puts : ∀ value s words, words (count / 4) = 0 →
      join words (put value s) = join (fun lane => words lane ^^^ only (count / 4) value lane) s)
    (unshifted : ∀ byte, part byte = byte)
    (same : ∀ value s, next value s = (memory.index 1 k count).bind fun byte => before (put (value ^^^ part byte) s)) :
    Gathers memory k join (count + 1) next := by
  intro value s t
  have empty : piece (memory.bytes k count) (count / 4) = 0 := piece_beyond (by rw [length_bytes]; omega)
  have shifted : ∀ byte, part byte = byte <<< (8 * (count % 4)) := by
    intro byte
    rw [unshifted, starts]
    exact (BitVec.shiftLeft_zero byte).symm
  rw [same, Nat.add_sub_cancel]
  apply index_bind
  rw [joins, puts _ _ _ empty, shifted]
  simp only [piece_byte]

end
end

/-! 32 bits. -/

def mixIn (h1 : Word) (block : List UInt8) : Word :=
  rotl32 (h1 ^^^ scramble c1 15 c2 (word block)) 13 * 5 + 0xe6546b64

def joinWord (words : Nat → Word) (h1 : Word) : Word := h1 ^^^ scramble c1 15 c2 (words 0)

def finish32 (h1 : Word) (rest : List UInt8) : Word := joinWord (piece rest) h1

/-- The hash of a sequence of bytes, given out as that of a key of some length. -/
def murmur3 (length : Word) (key : List UInt8) : Word :=
  fmix32 (Blockwise.digest 4 0 mixIn finish32 0 key ^^^ length)

/-- How many bytes at the front of a key are hashed, when the function returns. -/
def hashed (length : Nat) : Option Nat :=
  if length % 2 ^ 32 < 2 ^ 31 then some (length % 2 ^ 32)
  else if 2 ^ 32 - 4 < length % 2 ^ 32 then some (length % 4)
  else none

/-- The machine can load words at an address. -/
def Loads (memory : Memory) (key : Nat) : Prop := memory.unaligned = true ∨ 4 ∣ key

instance (memory : Memory) (key : Nat) : Decidable (Loads memory key) :=
  inferInstanceAs (Decidable (_ ∨ _))

section
variable {memory : Memory} {key base k m length rest n : Nat} {h h1 : Word}

theorem scramble_nothing (c1 : Word) (r : Nat) (c2 : Word) : scramble c1 r c2 0 = 0 := by
  simp [scramble, rotl32, rotl]

theorem joins_tail32 (memory : Memory) (k : Nat) (few : rest < 4) :
    Joins memory k joinWord rest (tail32 memory k rest) := by
  have case0 : Joins memory k joinWord 0 some := by
    apply joins_nothing
    intro h1
    rw [joinWord, scramble_nothing, xor_nothing]
  have puts : ∀ value h1 words, words 0 = 0 → joinWord words (h1 ^^^ scramble c1 15 c2 value) =
      joinWord (fun lane => words lane ^^^ only 0 value lane) h1 := by
    intro value h1 words nothing
    have both : words 0 ^^^ only 0 value 0 = value := by
      rw [nothing]
      exact BitVec.zero_xor
    rw [joinWord, joinWord, both, nothing, scramble_nothing, xor_nothing]
  have case1 : Gathers memory k joinWord 1 _ := case0.more rfl puts (fun byte => (rfl : id byte = byte)) fun _ _ => rfl
  have case2 : Gathers memory k joinWord 2 _ := case1.more (by decide) fun _ _ => rfl
  have case3 : Gathers memory k joinWord 3 _ := case2.more (by decide) fun _ _ => rfl
  interval_cases rest
  exacts [case0, case1.joins, case2.joins, case3.joins]

theorem getblock_eq_some {back : Nat} (offset : Nat) (here : base = k + back) (value : Word)
    (i : Int) (place : 4 * i = offset - back) : getblock32 memory base i = some value ↔
      Loads memory (k + offset) ∧ memory.Readable (k + offset) 4 ∧ word (memory.bytes (k + offset) 4) = value := by
  rw [getblock32, show ((base : Int) + 4 * i).toNat = k + offset by omega]
  exact load_eq_some

theorem turn32_eq_some (here : base = k + 4 * (m + 1)) (h1 next : Word) :
    turn32 memory base (-(m + 1 : Nat)) h1 = some next ↔
      Loads memory k ∧ memory.Readable k 4 ∧ mixIn h1 (memory.bytes k 4) = next := by
  have loads : ∀ value, getblock32 memory base (-(m + 1 : Nat)) = some value ↔ _ := fun value =>
    getblock_eq_some 0 here value (-(m + 1 : Nat)) (by omega)
  simp only [turn32, Option.bind_eq_bind, Option.bind_eq_some_iff, loads, Nat.add_zero, Option.some.injEq]
  apply Iff.intro
  · rintro ⟨_, ⟨allowed, readable, rfl⟩, same⟩
    exact ⟨allowed, readable, same⟩
  · rintro ⟨allowed, readable, same⟩
    exact ⟨_, ⟨allowed, readable, rfl⟩, same⟩

theorem loads_add (words : 4 ∣ n) : Loads memory (key + n) ↔ Loads memory key := by
  rw [Loads, Loads, Nat.dvd_add_left words]

/-- The loop and the switch, when there are m blocks for `int`. -/
theorem blocks32 (memory : Memory) (key m : Nat) (few : rest < 4) (h1 : Word) :
    (forBlocks (turn32 memory (key + 4 * m : Nat)) (-m) 0).bind (tail32 memory (key + 4 * m) rest) = some h1 ↔
      (0 < m → Loads memory key) ∧ memory.Readable key (4 * m + rest) ∧
        Blockwise.digest 4 0 mixIn finish32 0 (memory.bytes key (4 * m + rest)) =
          h1 := by
  have turns : ∀ k i s t, key + 4 * m = k + 4 * (i + 1) →
      (turn32 memory (key + 4 * m : Nat) (-(i + 1 : Nat)) s = some t ↔
        Loads memory key ∧ memory.Readable k 4 ∧ mixIn s (memory.bytes k 4) = t) := by
    intro k i s t here
    have aligned : Loads memory k ↔ Loads memory key := by
      rw [← loads_add (Nat.dvd_mul_right 4 (i + 1)), ← here, loads_add (Nat.dvd_mul_right 4 m)]
    rw [turn32_eq_some here, aligned]
  have tails : ∀ s t, tail32 memory (key + 4 * m) rest s = some t ↔ memory.Readable (key + 4 * m) rest ∧
      finish32 s (memory.bytes (key + 4 * m) rest) = t := joins_tail32 memory (key + 4 * m) few
  exact blocks_eq_some (by decide) turns tails few 0 h1 rfl

theorem toInt_ofNat (length : Nat) : (Int32.ofNat length).toInt =
    if length % 2 ^ 32 < 2 ^ 31 then ((length % 2 ^ 32 : Nat) : Int) else (length % 2 ^ 32 : Nat) - 2 ^ 32 := by
  rw [Int32.toInt_ofNat', Int32.size, Int.bmod_def]
  split <;> split <;> omega

/-- The count of blocks of which the loop runs from the negative up to 0. -/
theorem nblocks_eq (length : Nat) : (Int32.ofNat length).toInt.tdiv 4 =
    if length % 2 ^ 32 < 2 ^ 31 then ((length % 2 ^ 32 / 4 : Nat) : Int)
    else -((2 ^ 32 - length % 2 ^ 32) / 4 : Nat) := by
  rw [toInt_ofNat]
  by_cases low : length % 2 ^ 32 < 2 ^ 31
  · rw [if_pos low, if_pos low]
    rfl
  · have negative : ((length % 2 ^ 32 : Nat) : Int) - 2 ^ 32 = -(2 ^ 32 - length % 2 ^ 32 : Nat) := by omega
    rw [if_neg low, if_neg low, negative, Int.neg_tdiv]
    rfl

/-- Where `-nblocks` is above 0, the loop overflows before it comes to 0. -/
theorem murmurHash3X8632_eq_none (memory : Memory) (key : Nat) {length : Nat} (overflows : hashed length = none) :
    murmurHash3X8632 memory key length = none := by
  have above : 0 < -(Int32.ofNat length).toInt.tdiv 4 := by
    unfold hashed at overflows
    split at overflows
    · cases overflows
    next high =>
      split at overflows
      · cases overflows
      next far =>
        rw [nblocks_eq, if_neg high]
        omega
  rw [murmurHash3X8632, forBlocks_none above]
  rfl

theorem murmurHash3X8632_eq_some_of (memory : Memory) (key : Nat) {length n : Nat} (hashes : hashed length = some n)
    (h : Word) : murmurHash3X8632 memory key length = some h ↔ (4 ≤ n → Loads memory key) ∧
      memory.Readable key n ∧ murmur3 (BitVec.ofNat 32 length) (memory.bytes key n) = h := by
  have remaining : length &&& 3 = length % 4 := Nat.and_two_pow_sub_one_eq_mod length 2
  have few : length % 4 < 4 := by omega
  have counts : ∃ m : Nat, n = 4 * m + length % 4 ∧ (Int32.ofNat length).toInt.tdiv 4 = m := by
    rw [nblocks_eq]
    unfold hashed at hashes
    by_cases low : length % 2 ^ 32 < 2 ^ 31
    · rw [if_pos low, Option.some_inj] at hashes
      rw [if_pos low]
      exact ⟨length % 2 ^ 32 / 4, by omega, by omega⟩
    · rw [if_neg low] at hashes ⊢
      split at hashes
      next near =>
        rw [Option.some_inj] at hashes
        exact ⟨0, by omega, by omega⟩
      next => cases hashes
  obtain ⟨m, total, blocks⟩ := counts
  have address : (key : Int) + m * 4 = (key + 4 * m : Nat) := by omega
  have whole : 0 < m ↔ 4 ≤ n := by omega
  have same : murmurHash3X8632 memory key length =
      ((forBlocks (turn32 memory (key + 4 * m : Nat)) (-m) 0).bind (tail32 memory (key + 4 * m) (length % 4))).bind
        fun h1 => some (fmix32 (h1 ^^^ BitVec.ofNat 32 length)) := by
    rw [murmurHash3X8632, blocks, address, remaining]
    simp only [Option.bind_eq_bind, Option.bind_assoc, Int.toNat_natCast]
  rw [same, Option.bind_eq_some_iff]
  simp only [blocks32 memory key m few, whole, ← total]
  apply Iff.intro
  · rintro ⟨_, ⟨allowed, readable, rfl⟩, result⟩
    exact ⟨allowed, readable, Option.some.inj result⟩
  · rintro ⟨allowed, readable, result⟩
    exact ⟨_, ⟨allowed, readable, rfl⟩, congrArg some result⟩

end

/-! 128 bits. -/

def mixIn128 (s : Hash128) (block : List UInt8) : Hash128 :=
  mix128 (piece block 0) (piece block 1) (piece block 2) (piece block 3) s

def joinWords (words : Nat → Word) : Hash128 → Hash128
  | ⟨h1, h2, h3, h4⟩ =>
    ⟨h1 ^^^ scramble c1x128 15 c2x128 (words 0), h2 ^^^ scramble c2x128 16 c3x128 (words 1),
      h3 ^^^ scramble c3x128 17 c4x128 (words 2), h4 ^^^ scramble c4x128 18 c1x128 (words 3)⟩

def finish128 (s : Hash128) (rest : List UInt8) : Hash128 := joinWords (piece rest) s

/-- The hash of a sequence of bytes, given out as that of a key of some length. -/
def murmur3x128 (length seed : Word) (key : List UInt8) : Hash128 :=
  finalize128 length
    (Blockwise.digest 16 0 mixIn128 finish128 ⟨seed, seed, seed, seed⟩ key)

/-- How many bytes at the front of a key are hashed, when the function returns. -/
def hashed128 (len : Int32) : Option Nat :=
  if 0 ≤ len.toInt then some len.toInt.toNat
  else if -16 < len.toInt then some (16 + len.toInt).toNat
  else none

section
variable {memory : Memory} {key base k m rest n : Nat} {s t : Hash128} {seed : Word} {len : Int32}

/-- The word that the cases for one lane leave in it. -/
theorem only_word {words : Nat → Word} {lane : Nat} (value : Word) (nothing : words lane = 0) :
    words lane ^^^ only lane value lane = value := by
  rw [nothing, only, if_pos rfl]
  exact BitVec.zero_xor

theorem only_other {words : Nat → Word} {lane other : Nat} (value : Word) (apart : other ≠ lane) :
    words other ^^^ only lane value other = words other := by
  rw [only_apart apart, xor_nothing]

theorem joins_tail128 (memory : Memory) (k : Nat) (few : rest < 16) :
    Joins memory k joinWords rest (tail128 memory k rest) := by
  have shift := fun byte : Word => BitVec.shiftLeft_zero byte
  have case0 : Joins memory k joinWords 0 some := by
    apply joins_nothing
    rintro ⟨h1, h2, h3, h4⟩
    simp only [joinWords, scramble_nothing, xor_nothing]
  have put1 : ∀ value s words, words 0 = 0 →
      joinWords words { s with h1 := s.h1 ^^^ scramble c1x128 15 c2x128 value } =
        joinWords (fun lane => words lane ^^^ only 0 value lane) s := by
    intro value s words nothing
    simp (disch := decide) only [joinWords, only_word value nothing, only_other]
    rw [nothing, scramble_nothing, xor_nothing]
  have put2 : ∀ value s words, words 1 = 0 →
      joinWords words { s with h2 := s.h2 ^^^ scramble c2x128 16 c3x128 value } =
        joinWords (fun lane => words lane ^^^ only 1 value lane) s := by
    intro value s words nothing
    simp (disch := decide) only [joinWords, only_word value nothing, only_other]
    rw [nothing, scramble_nothing, xor_nothing]
  have put3 : ∀ value s words, words 2 = 0 →
      joinWords words { s with h3 := s.h3 ^^^ scramble c3x128 17 c4x128 value } =
        joinWords (fun lane => words lane ^^^ only 2 value lane) s := by
    intro value s words nothing
    simp (disch := decide) only [joinWords, only_word value nothing, only_other]
    rw [nothing, scramble_nothing, xor_nothing]
  have put4 : ∀ value s words, words 3 = 0 →
      joinWords words { s with h4 := s.h4 ^^^ scramble c4x128 18 c1x128 value } =
        joinWords (fun lane => words lane ^^^ only 3 value lane) s := by
    intro value s words nothing
    simp (disch := decide) only [joinWords, only_word value nothing, only_other]
    rw [nothing, scramble_nothing, xor_nothing]
  have case1 : Gathers memory k joinWords 1 _ := case0.more rfl put1 shift fun _ _ => rfl
  have case2 : Gathers memory k joinWords 2 _ := case1.more (by decide) fun _ _ => rfl
  have case3 : Gathers memory k joinWords 3 _ := case2.more (by decide) fun _ _ => rfl
  have case4 : Gathers memory k joinWords 4 _ := case3.more (by decide) fun _ _ => rfl
  have case5 : Gathers memory k joinWords 5 _ := case4.joins.more rfl put2 shift fun _ _ => rfl
  have case6 : Gathers memory k joinWords 6 _ := case5.more (by decide) fun _ _ => rfl
  have case7 : Gathers memory k joinWords 7 _ := case6.more (by decide) fun _ _ => rfl
  have case8 : Gathers memory k joinWords 8 _ := case7.more (by decide) fun _ _ => rfl
  have case9 : Gathers memory k joinWords 9 _ := case8.joins.more rfl put3 shift fun _ _ => rfl
  have case10 : Gathers memory k joinWords 10 _ := case9.more (by decide) fun _ _ => rfl
  have case11 : Gathers memory k joinWords 11 _ := case10.more (by decide) fun _ _ => rfl
  have case12 : Gathers memory k joinWords 12 _ := case11.more (by decide) fun _ _ => rfl
  have case13 : Gathers memory k joinWords 13 _ := case12.joins.more rfl put4 shift fun _ _ => rfl
  have case14 : Gathers memory k joinWords 14 _ := case13.more (by decide) fun _ _ => rfl
  have case15 : Gathers memory k joinWords 15 _ := case14.more (by decide) fun _ _ => rfl
  interval_cases rest
  exacts [case0, case1.joins, case2.joins, case3.joins, case4.joins, case5.joins, case6.joins, case7.joins, case8.joins, case9.joins, case10.joins, case11.joins, case12.joins, case13.joins, case14.joins, case15.joins]

theorem piece_word (memory : Memory) (k : Nat) {lane : Nat} (inside : 4 * lane + 4 ≤ n) :
    piece (memory.bytes k n) lane = word (memory.bytes (k + 4 * lane) 4) := by
  obtain ⟨beyond, total⟩ := Nat.exists_eq_add_of_le inside
  have here : (memory.bytes k n).drop (4 * lane) = memory.bytes (k + 4 * lane) (4 + beyond) := by
    rw [total, Nat.add_assoc, bytes_add, List.drop_append_of_le_length (by simp), List.drop_of_length_le (by simp),
      List.nil_append]
  rw [piece, here, bytes_add, List.take_append_of_le_length (by simp), List.take_of_length_le (by simp)]

theorem readable_words (memory : Memory) (k : Nat) : memory.Readable k 16 ↔ memory.Readable (k + 4 * 0) 4 ∧
    memory.Readable (k + 4 * 1) 4 ∧ memory.Readable (k + 4 * 2) 4 ∧ memory.Readable (k + 4 * 3) 4 := by
  rw [show 16 = 4 + (4 + (4 + 4)) from rfl, readable_add, readable_add, readable_add]
  rfl

theorem turn128_eq_some (here : base = k + 16 * (m + 1)) (s t : Hash128) :
    turn128 memory base (-(m + 1 : Nat)) s = some t ↔
      Loads memory k ∧ memory.Readable k 16 ∧ mixIn128 s (memory.bytes k 16) = t := by
  have loads : ∀ lane value, getblock32 memory base (-(m + 1 : Nat) * 4 + (lane : Nat)) = some value ↔
      Loads memory k ∧ memory.Readable (k + 4 * lane) 4 ∧ word (memory.bytes (k + 4 * lane) 4) = value := by
    intro lane value
    rw [getblock_eq_some (4 * lane) here value _ (by omega), loads_add (Nat.dvd_mul_right 4 lane)]
  have pieces := fun lane => @piece_word 16 memory k lane
  simp only [turn128, Option.bind_eq_bind, Option.bind_eq_some_iff, Option.some.injEq]
  rw [readable_words, mixIn128, pieces 0 (by decide), pieces 1 (by decide), pieces 2 (by decide), pieces 3 (by decide)]
  apply Iff.intro
  · rintro ⟨_, first, _, second, _, third, _, fourth, same⟩
    obtain ⟨allowed, read1, rfl⟩ := (loads 0 _).mp first
    obtain ⟨_, read2, rfl⟩ := (loads 1 _).mp second
    obtain ⟨_, read3, rfl⟩ := (loads 2 _).mp third
    obtain ⟨_, read4, rfl⟩ := (loads 3 _).mp fourth
    exact ⟨allowed, ⟨read1, read2, read3, read4⟩, same⟩
  · rintro ⟨allowed, ⟨read1, read2, read3, read4⟩, same⟩
    exact ⟨_, (loads 0 _).mpr ⟨allowed, read1, rfl⟩, _, (loads 1 _).mpr ⟨allowed, read2, rfl⟩, _,
      (loads 2 _).mpr ⟨allowed, read3, rfl⟩, _, (loads 3 _).mpr ⟨allowed, read4, rfl⟩, same⟩

/-- The loop and the switch, when there are m blocks for `int`. -/
theorem blocks128 (memory : Memory) (key m : Nat) (few : rest < 16) (s t : Hash128) :
    (forBlocks (turn128 memory (key + 16 * m : Nat)) (-m) s).bind (tail128 memory (key + 16 * m) rest) = some t ↔
      (0 < m → Loads memory key) ∧ memory.Readable key (16 * m + rest) ∧
        Blockwise.digest 16 0 mixIn128 finish128 s (memory.bytes key (16 * m + rest)) =
          t := by
  have turns : ∀ k i s t, key + 16 * m = k + 16 * (i + 1) →
      (turn128 memory (key + 16 * m : Nat) (-(i + 1 : Nat)) s = some t ↔
        Loads memory key ∧ memory.Readable k 16 ∧ mixIn128 s (memory.bytes k 16) = t) := by
    intro k i s t here
    have aligned : Loads memory k ↔ Loads memory key := by
      rw [← loads_add (show 4 ∣ 16 * (i + 1) by omega), ← here, loads_add (by omega)]
    rw [turn128_eq_some here, aligned]
  have tails : ∀ s t, tail128 memory (key + 16 * m) rest s = some t ↔ memory.Readable (key + 16 * m) rest ∧
      finish128 s (memory.bytes (key + 16 * m) rest) = t := joins_tail128 memory (key + 16 * m) few
  exact blocks_eq_some (by decide) turns tails few s t rfl

/-- `len & 15`, also of a length below 0. -/
theorem toInt_and (len : Int32) : (len &&& 15).toInt = len.toInt % 16 := by
  have low : (len.toBitVec &&& 15).toNat = len.toBitVec.toNat % 16 := by
    rw [BitVec.toNat_and]
    exact Nat.and_two_pow_sub_one_eq_mod _ 4
  have masked : (len &&& 15).toInt = (len.toBitVec &&& 15).toInt := rfl
  have whole : len.toInt = len.toBitVec.toInt := rfl
  rw [masked, whole, BitVec.toInt_eq_toNat_cond, BitVec.toInt_eq_toNat_cond, low]
  split <;> split <;> omega

theorem tdiv_negative {x : Int} (negative : x ≤ 0) : x.tdiv 16 = -((-x).toNat / 16 : Nat) := by
  have back : x = -((-x).toNat : Nat) := by omega
  calc x.tdiv 16 = (-((-x).toNat : Nat) : Int).tdiv 16 := by rw [← back]
    _ = -(((-x).toNat : Nat) : Int).tdiv 16 := Int.neg_tdiv _ _

theorem murmurHash3X86128_eq_none (memory : Memory) (key : Nat) {len : Int32} (seed : Word)
    (overflows : hashed128 len = none) : murmurHash3X86128 memory key len seed = none := by
  have above : 0 < -len.toInt.tdiv 16 := by
    unfold hashed128 at overflows
    split at overflows
    · cases overflows
    next negative =>
      split at overflows
      · cases overflows
      next far =>
        rw [tdiv_negative (by omega)]
        omega
  rw [murmurHash3X86128, forBlocks_none above]
  rfl

theorem murmurHash3X86128_eq_some_of (memory : Memory) (key : Nat) {len : Int32} {n : Nat}
    (hashes : hashed128 len = some n) (seed : Word) (h : Hash128) :
    murmurHash3X86128 memory key len seed = some h ↔ (16 ≤ n → Loads memory key) ∧
      memory.Readable key n ∧ murmur3x128 len.toBitVec seed (memory.bytes key n) = h := by
  have counts : ∃ m : Nat, n = 16 * m + (len &&& 15).toInt.toNat ∧ len.toInt.tdiv 16 = m := by
    rw [toInt_and]
    unfold hashed128 at hashes
    by_cases positive : 0 ≤ len.toInt
    · rw [if_pos positive, Option.some_inj] at hashes
      rw [Int.tdiv_eq_ediv_of_nonneg positive]
      exact ⟨(len.toInt / 16).toNat, by omega, by omega⟩
    · rw [if_neg positive] at hashes
      rw [tdiv_negative (by omega)]
      split at hashes
      next near =>
        rw [Option.some_inj] at hashes
        exact ⟨0, by omega, by omega⟩
      next => cases hashes
  obtain ⟨m, total, blocks⟩ := counts
  have few : (len &&& 15).toInt.toNat < 16 := by
    rw [toInt_and]
    omega
  have address : (key : Int) + m * 16 = (key + 16 * m : Nat) := by omega
  have whole : 0 < m ↔ 16 ≤ n := by omega
  have same : murmurHash3X86128 memory key len seed =
      ((forBlocks (turn128 memory (key + 16 * m : Nat)) (-m) ⟨seed, seed, seed, seed⟩).bind
        (tail128 memory (key + 16 * m) (len &&& 15).toInt.toNat)).bind
        fun s => some (finalize128 len.toBitVec s) := by
    rw [murmurHash3X86128, blocks, address]
    simp only [Option.bind_eq_bind, Option.bind_assoc, Int.toNat_natCast]
  rw [same, Option.bind_eq_some_iff]
  simp only [blocks128 memory key m few, whole, ← total]
  apply Iff.intro
  · rintro ⟨_, ⟨allowed, readable, rfl⟩, result⟩
    exact ⟨allowed, readable, Option.some.inj result⟩
  · rintro ⟨allowed, readable, result⟩
    exact ⟨_, ⟨allowed, readable, rfl⟩, congrArg some result⟩

/-- The hash is that of the bytes that `int` leaves of the length, which may be less than 0. -/
theorem murmurHash3X86128_eq_some (memory : Memory) (key : Nat) (len : Int32) (seed : Word) (h : Hash128) :
    murmurHash3X86128 memory key len seed = some h ↔ ∃ n, hashed128 len = some n ∧ (16 ≤ n → Loads memory key) ∧
      memory.Readable key n ∧ murmur3x128 len.toBitVec seed (memory.bytes key n) = h := by
  cases hashes : hashed128 len with
  | none =>
    rw [murmurHash3X86128_eq_none memory key seed hashes]
    simp
  | some n =>
    rw [murmurHash3X86128_eq_some_of memory key hashes]
    simp

end

end EasyStressTest.MurmurPaths
