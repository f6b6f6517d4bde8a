import Mathlib.Tactic.IntervalCases
import EasyStressTest.Blockwise
import EasyStressTest.JenkinsHash

/-!
The hash of a sequence of bytes, and that `jenkins_hash` computes it from every address and in
every build: it adds the same bytes to the same places of its state, and the three ways differ in
how many of them it gets from one load.
-/

namespace EasyStressTest.JenkinsPaths
open Words LittleEndian JenkinsHash

def addTo (s : State) (lane : Nat) (value : Word) : State :=
  match lane with
  | 0 => { s with a := s.a + value }
  | 1 => { s with b := s.b + value }
  | _ => { s with c := s.c + value }

/-- The bytes that follow the first i of a block. -/
def absorbAt (s : State) : Nat → List UInt8 → State
  | _, [] => s
  | i, byte :: rest => absorbAt (addTo s (i / 4) (word [byte] <<< (8 * (i % 4)))) (i + 1) rest

/-- The end of a key. Without bytes it needs no mixing. -/
def finish (s : State) (rest : List UInt8) : State := if rest = [] then s else final (absorbAt s 0 rest)

/-- The state at the end of a key. -/
def digest (s : State) (key : List UInt8) : State :=
  Blockwise.digest 12 1 (fun s block => mix (absorbAt s 0 block)) finish s key

def start (length : Nat) : State :=
  let initial : Word := 0xdeadbeef + BitVec.ofNat 32 length
  ⟨initial, initial, initial⟩

/-- The hash of a sequence of bytes. -/
def hashlittle (key : List UInt8) : Word := (digest (start key.length) key).c

/-- How many bytes the way that an address takes reads. -/
def span (valgrind : Bool) (key length : Nat) : Nat :=
  if key % 4 = 0 ∧ valgrind = false then 4 * ((length + 3) / 4) else length

section
variable {memory : Memory} {k i size reach count used lane length : Nat} {s t : State} {value other : Word}
  {act next : State → Option State}

theorem addTo_zero (s : State) (lane : Nat) : addTo s lane 0 = s := by
  rcases lane with _ | _ | _ <;> simp [addTo]

theorem addTo_add (s : State) (lane : Nat) (value other : Word) :
    addTo (addTo s lane value) lane other = addTo s lane (value + other) := by
  rcases lane with _ | _ | _ <;> simp [addTo, BitVec.add_assoc]

theorem addTo_comm (s : State) (lane apart : Nat) (value other : Word) :
    addTo (addTo s lane value) apart other = addTo (addTo s apart other) lane value := by
  have swap : ∀ x : Word, x + value + other = x + other + value := fun x => by
    rw [BitVec.add_assoc, BitVec.add_comm value, BitVec.add_assoc]
  rcases lane with _ | _ | _ <;> rcases apart with _ | _ | _ <;> simp [addTo, swap]

theorem absorbAt_addTo (s : State) (lane i : Nat) (value : Word) (bytes : List UInt8) :
    absorbAt (addTo s lane value) i bytes = addTo (absorbAt s i bytes) lane value := by
  induction bytes generalizing s i with
  | nil => rfl
  | cons byte rest ih => rw [absorbAt, addTo_comm, ih, absorbAt]

theorem absorbAt_append (s : State) (i : Nat) (first second : List UInt8) :
    absorbAt s i (first ++ second) = absorbAt (absorbAt s i first) (i + first.length) second := by
  induction first generalizing s i with
  | nil => rfl
  | cons byte rest ih =>
    rw [List.cons_append, absorbAt, ih, absorbAt, List.length_cons]
    congr 1
    omega

/-- Bytes of one word of the block are added to the state together. -/
theorem absorbAt_word (s : State) {i : Nat} {bytes : List UInt8} (inside : i % 4 + bytes.length ≤ 4) :
    absorbAt s i bytes = addTo s (i / 4) (word bytes <<< (8 * (i % 4))) := by
  induction bytes generalizing s i with
  | nil =>
    have nothing : word [] <<< (8 * (i % 4)) = 0 := BitVec.zero_shiftLeft _
    rw [absorbAt, nothing, addTo_zero]
  | cons byte rest ih =>
    rw [List.length_cons] at inside
    cases rest with
    | nil => rfl
    | cons following rest =>
      rw [List.length_cons] at inside
      have lane : (i + 1) / 4 = i / 4 := by omega
      have place : (i + 1) % 4 = i % 4 + 1 := by omega
      rw [absorbAt, ih _ (by rw [List.length_cons]; omega), lane, place, addTo_add,
        word_cons byte (following :: rest), BitVec.shiftLeft_add_distrib, ← BitVec.shiftLeft_add, Nat.mul_add, Nat.add_comm (8 * (i % 4))]

/-! What a piece of the code reads and adds. -/

/-- A load of the bytes that follow the first i at k. -/
def Gets (memory : Memory) (k i size : Nat) (get : Option Word) : Prop :=
  ∀ value, get = some value ↔ memory.Readable (k + i) size ∧ word (memory.bytes (k + i) size) = value

/-- The code reads `reach` bytes that follow the first i at k, and adds `count` of them. -/
def Reads (memory : Memory) (k i reach count : Nat) (act : State → Option State) : Prop :=
  ∀ s t, act s = some t ↔
    memory.Readable (k + i) reach ∧ absorbAt s i (memory.bytes (k + i) count) = t

theorem gets_index (aligned : size ∣ k) (i : Nat) : Gets memory k (size * i) size (memory.index size k i) :=
  fun _ => index_eq_some aligned

theorem gets_wide (aligned : 2 ∣ k) (i : Nat) : Gets memory k (2 * i) 4 (wide memory k i) := by
  intro value
  have split : word (memory.bytes (k + 2 * i) 4) =
      word (memory.bytes (k + 2 * i) 2) + word (memory.bytes (k + 2 * (i + 1)) 2) <<< 16 := by
    rw [show memory.bytes (k + 2 * i) 4 = _ from bytes_add memory (k + 2 * i) 2 2]
    simp only [bytes_succ, bytes_zero, List.cons_append, List.nil_append]
    rw [word_cons, word_cons (memory.byte (k + 2 * i + 1)), word_cons _ [memory.byte (k + 2 * i + 1)],
      BitVec.shiftLeft_add_distrib, ← BitVec.shiftLeft_add, ← BitVec.add_assoc]
    rfl
  rw [readable_add memory (k + 2 * i) 2 2, split]
  simp only [wide, Option.bind_eq_bind, Option.bind_eq_some_iff, index_eq_some aligned, Option.some.injEq]
  apply Iff.intro
  · rintro ⟨_, ⟨first, rfl⟩, _, ⟨second, rfl⟩, sum⟩
    exact ⟨⟨first, second⟩, sum⟩
  · rintro ⟨⟨first, second⟩, sum⟩
    exact ⟨_, ⟨first, rfl⟩, _, ⟨second, rfl⟩, sum⟩

theorem reads_nothing (memory : Memory) (k i : Nat) : Reads memory k i 0 0 some := by
  intro s t
  simp [Memory.Readable, absorbAt]

/-- A load below the bytes that the rest of the code reads. -/
theorem Reads.after (reads : Reads memory k (i + size) reach count act) {get : Option Word}
    (gets : Gets memory k i size get) (inside : i % 4 + size ≤ 4) {part : Word → Word}
    (whole : ∀ value, part value = value <<< (8 * (i % 4)))
    (same : ∀ s, next s = get.bind fun value => act (addTo s (i / 4) (part value))) :
    Reads memory k i (size + reach) (size + count) next := by
  intro s t
  have rest : ∀ value, act (addTo s (i / 4) (part value)) = some t ↔ _ := fun value => reads _ t
  simp only [same, Option.bind_eq_some_iff, rest, gets _]
  rw [readable_add, bytes_add, absorbAt_append, absorbAt_word s (by simpa using inside), length_bytes,
    ← Nat.add_assoc]
  apply Iff.intro
  · rintro ⟨_, ⟨here, rfl⟩, later, sum⟩
    rw [whole] at sum
    exact ⟨⟨here, later⟩, sum⟩
  · rintro ⟨⟨here, later⟩, sum⟩
    rw [← whole] at sum
    exact ⟨_, ⟨here, rfl⟩, later, sum⟩

/-- A load above the bytes that the rest of the code reads, of which it may use only the lower part. -/
theorem Reads.before (reads : Reads memory k 0 i i act) {get : Option Word} (gets : Gets memory k i size get)
    (part : Word → Word) (some_part : used ≤ size) (inside : i % 4 + used ≤ 4)
    (lower : ∀ bytes : List UInt8, bytes.length = size → part (word bytes) = word (bytes.take used) <<< (8 * (i % 4)))
    (same : ∀ s, next s = get.bind fun value => act (addTo s (i / 4) (part value))) :
    Reads memory k 0 (i + size) (i + used) next := by
  intro s t
  have rest : ∀ value, act (addTo s (i / 4) (part value)) = some t ↔ _ := fun value => reads _ t
  have lowest : (memory.bytes (k + i) size).take used = memory.bytes (k + i) used := by
    obtain ⟨unused, total⟩ := Nat.exists_eq_add_of_le some_part
    rw [total, bytes_add, List.take_append_of_le_length (by simp), List.take_of_length_le (by simp)]
  have value := lower (memory.bytes (k + i) size) length_bytes
  rw [lowest] at value
  simp only [same, Option.bind_eq_some_iff, rest, gets _, Nat.add_zero]
  rw [readable_add, bytes_add, absorbAt_append, length_bytes, Nat.zero_add,
    absorbAt_word _ (by simpa using inside), ← value, ← absorbAt_addTo]
  apply Iff.intro
  · rintro ⟨_, ⟨here, rfl⟩, earlier, sum⟩
    exact ⟨⟨earlier, here⟩, sum⟩
  · rintro ⟨⟨earlier, here⟩, sum⟩
    exact ⟨_, ⟨here, rfl⟩, earlier, sum⟩

/-- A load of which everything is used. -/
theorem Reads.all (reads : Reads memory k 0 i i act) {get : Option Word} (gets : Gets memory k i size get)
    (part : Word → Word) (inside : i % 4 + size ≤ 4) (whole : ∀ value, part value = value <<< (8 * (i % 4)))
    (same : ∀ s, next s = get.bind fun value => act (addTo s (i / 4) (part value))) :
    Reads memory k 0 (i + size) (i + size) next := by
  refine reads.before gets part (Nat.le_refl size) inside ?_ same
  intro bytes length
  rw [whole, List.take_of_length_le (Nat.le_of_eq length)]

theorem unshifted (value : Word) : value = value <<< 0 := (BitVec.shiftLeft_zero value).symm

/-- The low bytes of a word that is the last of a key. -/
theorem Reads.low (reads : Reads memory k 0 i i act) {get : Option Word} (gets : Gets memory k i 4 get)
    (start : i % 4 = 0) (used : Nat) (few : used ≤ 4) {mask : Word} (masks : mask = BitVec.ofNat 32 (256 ^ used - 1))
    (same : ∀ s, next s = get.bind fun value => act (addTo s (i / 4) (value &&& mask))) :
    Reads memory k 0 (i + 4) (i + used) next := by
  refine reads.before gets (· &&& mask) few (by omega) ?_ same
  intro bytes length
  rw [masks]
  have split := List.take_append_drop used bytes
  have low : (bytes.take used).length = used := by
    rw [List.length_take]
    omega
  have masked := word_masked (bytes.take used) (bytes.drop used) (by omega)
  rw [split, low] at masked
  rw [masked, start]
  exact unshifted _

/-! The three ways. -/

theorem reads_block32 (aligned : 4 ∣ k) : Reads memory k 0 12 12 (block32 memory k) := by
  have c : Reads memory k 8 4 4 _ :=
    (reads_nothing memory k 12).after (gets_index aligned 2) (by decide) unshifted fun _ => rfl
  have b : Reads memory k 4 8 8 _ := c.after (gets_index aligned 1) (by decide) unshifted fun _ => rfl
  exact b.after (gets_index aligned 0) (by decide) unshifted fun _ => rfl

theorem reads_block16 (aligned : 2 ∣ k) : Reads memory k 0 12 12 (block16 memory k) := by
  have c : Reads memory k 8 4 4 _ :=
    (reads_nothing memory k 12).after (gets_wide aligned 4) (by decide) unshifted fun _ => rfl
  have b : Reads memory k 4 8 8 _ := c.after (gets_wide aligned 2) (by decide) unshifted fun _ => rfl
  exact b.after (gets_wide aligned 0) (by decide) unshifted fun _ => rfl

theorem reads_block8 (memory : Memory) (k : Nat) : Reads memory k 0 12 12 (block8 memory k) := by
  have byte : ∀ i, Gets memory k (1 * i) 1 (memory.index 1 k i) := gets_index (Nat.one_dvd k)
  have r11 : Reads memory k 11 1 1 _ :=
    (reads_nothing memory k 12).after (byte 11) (by decide) (fun _ => rfl) fun _ => rfl
  have r10 : Reads memory k 10 2 2 _ := r11.after (byte 10) (by decide) (fun _ => rfl) fun _ => rfl
  have r9 : Reads memory k 9 3 3 _ := r10.after (byte 9) (by decide) (fun _ => rfl) fun _ => rfl
  have r8 : Reads memory k 8 4 4 _ := r9.after (byte 8) (by decide) unshifted fun _ => rfl
  have r7 : Reads memory k 7 5 5 _ := r8.after (byte 7) (by decide) (fun _ => rfl) fun _ => rfl
  have r6 : Reads memory k 6 6 6 _ := r7.after (byte 6) (by decide) (fun _ => rfl) fun _ => rfl
  have r5 : Reads memory k 5 7 7 _ := r6.after (byte 5) (by decide) (fun _ => rfl) fun _ => rfl
  have r4 : Reads memory k 4 8 8 _ := r5.after (byte 4) (by decide) unshifted fun _ => rfl
  have r3 : Reads memory k 3 9 9 _ := r4.after (byte 3) (by decide) (fun _ => rfl) fun _ => rfl
  have r2 : Reads memory k 2 10 10 _ := r3.after (byte 2) (by decide) (fun _ => rfl) fun _ => rfl
  have r1 : Reads memory k 1 11 11 _ := r2.after (byte 1) (by decide) (fun _ => rfl) fun _ => rfl
  exact r1.after (byte 0) (by decide) unshifted fun _ => rfl

theorem reads_last8 (memory : Memory) (k : Nat) (some_bytes : 0 < length) (few : length ≤ 12) :
    Reads memory k 0 length length (last8 memory length k) := by
  have byte : ∀ i, Gets memory k (1 * i) 1 (memory.index 1 k i) := gets_index (Nat.one_dvd k)
  have r1 : Reads memory k 0 1 1 (last8 memory 1 k) :=
    (reads_nothing memory k 0).all (byte 0) id (by decide) unshifted fun _ => rfl
  have r2 : Reads memory k 0 2 2 (last8 memory 2 k) :=
    r1.all (byte 1) (· <<< 8) (by decide) (fun _ => rfl) fun _ => rfl
  have r3 : Reads memory k 0 3 3 (last8 memory 3 k) :=
    r2.all (byte 2) (· <<< 16) (by decide) (fun _ => rfl) fun _ => rfl
  have r4 : Reads memory k 0 4 4 (last8 memory 4 k) :=
    r3.all (byte 3) (· <<< 24) (by decide) (fun _ => rfl) fun _ => rfl
  have r5 : Reads memory k 0 5 5 (last8 memory 5 k) := r4.all (byte 4) id (by decide) unshifted fun _ => rfl
  have r6 : Reads memory k 0 6 6 (last8 memory 6 k) :=
    r5.all (byte 5) (· <<< 8) (by decide) (fun _ => rfl) fun _ => rfl
  have r7 : Reads memory k 0 7 7 (last8 memory 7 k) :=
    r6.all (byte 6) (· <<< 16) (by decide) (fun _ => rfl) fun _ => rfl
  have r8 : Reads memory k 0 8 8 (last8 memory 8 k) :=
    r7.all (byte 7) (· <<< 24) (by decide) (fun _ => rfl) fun _ => rfl
  have r9 : Reads memory k 0 9 9 (last8 memory 9 k) := r8.all (byte 8) id (by decide) unshifted fun _ => rfl
  have r10 : Reads memory k 0 10 10 (last8 memory 10 k) :=
    r9.all (byte 9) (· <<< 8) (by decide) (fun _ => rfl) fun _ => rfl
  have r11 : Reads memory k 0 11 11 (last8 memory 11 k) :=
    r10.all (byte 10) (· <<< 16) (by decide) (fun _ => rfl) fun _ => rfl
  have r12 : Reads memory k 0 12 12 (last8 memory 12 k) :=
    r11.all (byte 11) (· <<< 24) (by decide) (fun _ => rfl) fun _ => rfl
  interval_cases length
  exacts [r1, r2, r3, r4, r5, r6, r7, r8, r9, r10, r11, r12]

theorem reads_last16 (aligned : 2 ∣ k) (some_bytes : 0 < length) (few : length ≤ 12) :
    Reads memory k 0 length length (last16 memory length k) := by
  have byte : ∀ i, Gets memory k (1 * i) 1 (memory.index 1 k i) := gets_index (Nat.one_dvd k)
  have half : ∀ i, Gets memory k (2 * i) 2 (memory.index 2 k i) := gets_index aligned
  have full : ∀ i, Gets memory k (2 * i) 4 (wide memory k i) := gets_wide aligned
  have r1 : Reads memory k 0 1 1 (last16 memory 1 k) :=
    (reads_nothing memory k 0).all (byte 0) id (by decide) unshifted fun _ => rfl
  have r2 : Reads memory k 0 2 2 (last16 memory 2 k) :=
    (reads_nothing memory k 0).all (half 0) id (by decide) unshifted fun _ => rfl
  have r3 : Reads memory k 0 3 3 (last16 memory 3 k) :=
    r2.all (byte 2) (· <<< 16) (by decide) (fun _ => rfl) fun _ => rfl
  have r4 : Reads memory k 0 4 4 (last16 memory 4 k) :=
    (reads_nothing memory k 0).all (full 0) id (by decide) unshifted fun _ => rfl
  have r5 : Reads memory k 0 5 5 (last16 memory 5 k) := r4.all (byte 4) id (by decide) unshifted fun _ => rfl
  have r6 : Reads memory k 0 6 6 (last16 memory 6 k) := r4.all (half 2) id (by decide) unshifted fun _ => rfl
  have r7 : Reads memory k 0 7 7 (last16 memory 7 k) :=
    r6.all (byte 6) (· <<< 16) (by decide) (fun _ => rfl) fun _ => rfl
  have r8 : Reads memory k 0 8 8 (last16 memory 8 k) := r4.all (full 2) id (by decide) unshifted fun _ => rfl
  have r9 : Reads memory k 0 9 9 (last16 memory 9 k) := r8.all (byte 8) id (by decide) unshifted fun _ => rfl
  have r10 : Reads memory k 0 10 10 (last16 memory 10 k) := r8.all (half 4) id (by decide) unshifted fun _ => rfl
  have r11 : Reads memory k 0 11 11 (last16 memory 11 k) :=
    r10.all (byte 10) (· <<< 16) (by decide) (fun _ => rfl) fun _ => rfl
  have r12 : Reads memory k 0 12 12 (last16 memory 12 k) := r8.all (full 4) id (by decide) unshifted fun _ => rfl
  interval_cases length
  exacts [r1, r2, r3, r4, r5, r6, r7, r8, r9, r10, r11, r12]

theorem reads_last32Valgrind (aligned : 4 ∣ k) (some_bytes : 0 < length) (few : length ≤ 12) :
    Reads memory k 0 length length (last32Valgrind memory length k) := by
  have byte : ∀ i, Gets memory k (1 * i) 1 (memory.index 1 k i) := gets_index (Nat.one_dvd k)
  have full : ∀ i, Gets memory k (4 * i) 4 (memory.index 4 k i) := gets_index aligned
  have r1 : Reads memory k 0 1 1 (last32Valgrind memory 1 k) :=
    (reads_nothing memory k 0).all (byte 0) id (by decide) unshifted fun _ => rfl
  have r2 : Reads memory k 0 2 2 (last32Valgrind memory 2 k) :=
    r1.all (byte 1) (· <<< 8) (by decide) (fun _ => rfl) fun _ => rfl
  have r3 : Reads memory k 0 3 3 (last32Valgrind memory 3 k) :=
    r2.all (byte 2) (· <<< 16) (by decide) (fun _ => rfl) fun _ => rfl
  have r4 : Reads memory k 0 4 4 (last32Valgrind memory 4 k) :=
    (reads_nothing memory k 0).all (full 0) id (by decide) unshifted fun _ => rfl
  have r5 : Reads memory k 0 5 5 (last32Valgrind memory 5 k) :=
    r4.all (byte 4) id (by decide) unshifted fun _ => rfl
  have r6 : Reads memory k 0 6 6 (last32Valgrind memory 6 k) :=
    r5.all (byte 5) (· <<< 8) (by decide) (fun _ => rfl) fun _ => rfl
  have r7 : Reads memory k 0 7 7 (last32Valgrind memory 7 k) :=
    r6.all (byte 6) (· <<< 16) (by decide) (fun _ => rfl) fun _ => rfl
  have r8 : Reads memory k 0 8 8 (last32Valgrind memory 8 k) :=
    r4.all (full 1) id (by decide) unshifted fun _ => rfl
  have r9 : Reads memory k 0 9 9 (last32Valgrind memory 9 k) :=
    r8.all (byte 8) id (by decide) unshifted fun _ => rfl
  have r10 : Reads memory k 0 10 10 (last32Valgrind memory 10 k) :=
    r9.all (byte 9) (· <<< 8) (by decide) (fun _ => rfl) fun _ => rfl
  have r11 : Reads memory k 0 11 11 (last32Valgrind memory 11 k) :=
    r10.all (byte 10) (· <<< 16) (by decide) (fun _ => rfl) fun _ => rfl
  have r12 : Reads memory k 0 12 12 (last32Valgrind memory 12 k) :=
    r8.all (full 2) id (by decide) unshifted fun _ => rfl
  interval_cases length
  exacts [r1, r2, r3, r4, r5, r6, r7, r8, r9, r10, r11, r12]

/-- Without VALGRIND the last word is read as a whole. -/
theorem reads_last32 (aligned : 4 ∣ k) (some_bytes : 0 < length) (few : length ≤ 12) :
    Reads memory k 0 (4 * ((length + 3) / 4)) length (last32 memory length k) := by
  have full : ∀ i, Gets memory k (4 * i) 4 (memory.index 4 k i) := gets_index aligned
  have r0 := reads_nothing memory k 0
  have r4 : Reads memory k 0 4 4 (last32 memory 4 k) := r0.all (full 0) id (by decide) unshifted fun _ => rfl
  have r8 : Reads memory k 0 8 8 (last32 memory 8 k) := r4.all (full 1) id (by decide) unshifted fun _ => rfl
  have r12 : Reads memory k 0 12 12 (last32 memory 12 k) := r8.all (full 2) id (by decide) unshifted fun _ => rfl
  have r1 : Reads memory k 0 4 1 (last32 memory 1 k) :=
    r0.low (full 0) rfl 1 (by decide) rfl fun _ => rfl
  have r2 : Reads memory k 0 4 2 (last32 memory 2 k) :=
    r0.low (full 0) rfl 2 (by decide) rfl fun _ => rfl
  have r3 : Reads memory k 0 4 3 (last32 memory 3 k) :=
    r0.low (full 0) rfl 3 (by decide) rfl fun _ => rfl
  have r5 : Reads memory k 0 8 5 (last32 memory 5 k) :=
    r4.low (full 1) rfl 1 (by decide) rfl fun _ => rfl
  have r6 : Reads memory k 0 8 6 (last32 memory 6 k) :=
    r4.low (full 1) rfl 2 (by decide) rfl fun _ => rfl
  have r7 : Reads memory k 0 8 7 (last32 memory 7 k) :=
    r4.low (full 1) rfl 3 (by decide) rfl fun _ => rfl
  have r9 : Reads memory k 0 12 9 (last32 memory 9 k) :=
    r8.low (full 2) rfl 1 (by decide) rfl fun _ => rfl
  have r10 : Reads memory k 0 12 10 (last32 memory 10 k) :=
    r8.low (full 2) rfl 2 (by decide) rfl fun _ => rfl
  have r11 : Reads memory k 0 12 11 (last32 memory 11 k) :=
    r8.low (full 2) rfl 3 (by decide) rfl fun _ => rfl
  interval_cases length
  exacts [r1, r2, r3, r4, r5, r6, r7, r8, r9, r10, r11, r12]

/-! From the pieces to the whole key. -/

theorem digest_last {key : List UInt8} (some_bytes : key ≠ []) (few : key.length ≤ 12) :
    digest s key = final (absorbAt s 0 key) := by
  rw [digest, Blockwise.digest_last (by omega), finish, if_neg some_bytes]

theorem digest_nil (s : State) : digest s [] = s := by
  rw [digest, Blockwise.digest_last (by simp), finish, if_pos rfl]

theorem hashBy_long {block : Nat → State → Option State} {last : Nat → Nat → State → Option State}
    (long : 12 < length) (s : State) (k : Nat) :
    hashBy block last s length k = (block k s).bind fun s => hashBy block last (mix s) (length - 12) (k + 12) := by
  rw [hashBy, whileBlocks, if_pos long]
  simp only [Option.bind_eq_bind, Option.bind_assoc]
  rfl

theorem hashBy_last {block : Nat → State → Option State} {last : Nat → Nat → State → Option State}
    (some_bytes : 0 < length) (few : length ≤ 12) (s : State) (k : Nat) :
    hashBy block last s length k = (last length k s).bind fun s => some (final s).c := by
  rw [hashBy, whileBlocks, if_neg (by omega)]
  simp only [Option.bind_eq_bind, Option.bind_some, if_neg (show length ≠ 0 by omega)]

theorem hashBy_nil {block : Nat → State → Option State} {last : Nat → Nat → State → Option State}
    (s : State) (k : Nat) : hashBy block last s 0 k = some s.c := by
  rw [hashBy, whileBlocks, if_neg (by omega)]
  rfl

/-- A way whose pieces read as they should is the hash of the bytes, when it can read `reach` bytes. -/
theorem hashBy_eq_some {block : Nat → State → Option State} {last : Nat → Nat → State → Option State}
    {reach : Nat → Nat} (blocks : ∀ k, size ∣ k → Reads memory k 0 12 12 (block k))
    (lasts : ∀ k length, size ∣ k → 0 < length → length ≤ 12 →
      Reads memory k 0 (reach length) length (last length k))
    (divides : size ∣ 12) (reach_zero : reach 0 = 0) (reach_add : ∀ length, reach (12 + length) = 12 + reach length)
    (aligned : size ∣ k) (h : Word) : hashBy block last s length k = some h ↔
      memory.Readable k (reach length) ∧ (digest s (memory.bytes k length)).c = h := by
  induction length using Nat.strong_induction_on generalizing k s with
  | _ length ih =>
    by_cases long : 12 < length
    · obtain ⟨rest, split⟩ := Nat.exists_eq_add_of_lt long
      have total : length = 12 + (rest + 1) := by omega
      have front : ∀ t, block k s = some t ↔ _ := fun t => blocks k aligned s t
      have later : ∀ t, hashBy block last (mix t) (rest + 1) (k + 12) = some h ↔ _ := fun t =>
        ih (rest + 1) (by omega) ((Nat.dvd_add_right aligned).mpr divides)
      rw [hashBy_long long, Option.bind_eq_some_iff, show length - 12 = rest + 1 by omega, total, reach_add,
        readable_add, bytes_add, digest, Blockwise.digest_cons (by decide) s length_bytes (by simp)]
      simp only [front, later, Nat.add_zero]
      apply Iff.intro
      · rintro ⟨_, ⟨here, rfl⟩, beyond, same⟩
        exact ⟨⟨here, beyond⟩, same⟩
      · rintro ⟨⟨here, beyond⟩, same⟩
        exact ⟨_, ⟨here, rfl⟩, beyond, same⟩
    · by_cases some_bytes : 0 < length
      · have ends : ∀ t, last length k s = some t ↔ _ := fun t =>
          lasts k length aligned some_bytes (by omega) s t
        have nonempty : memory.bytes k length ≠ [] := List.ne_nil_of_length_pos (by simpa using some_bytes)
        rw [hashBy_last some_bytes (by omega), Option.bind_eq_some_iff, digest_last nonempty (by simp; omega)]
        simp only [ends, Nat.add_zero, Option.some.injEq]
        apply Iff.intro
        · rintro ⟨_, ⟨here, rfl⟩, same⟩
          exact ⟨here, same⟩
        · rintro ⟨here, same⟩
          exact ⟨_, ⟨here, rfl⟩, same⟩
      · have none : length = 0 := by omega
        subst none
        rw [hashBy_nil, bytes_zero, digest_nil, reach_zero, Option.some.injEq]
        simp [Memory.Readable]

/-- The path for any address, which reads one byte at a time. -/
theorem bytewise_eq_some (memory : Memory) (key length : Nat) (h : Word) :
    hashBy (block8 memory) (last8 memory) (start length) length key = some h ↔
      memory.Readable key length ∧ hashlittle (memory.bytes key length) = h := by
  rw [hashlittle, length_bytes]
  exact hashBy_eq_some (fun k _ => reads_block8 memory k) (fun k _ _ => reads_last8 memory k) (by decide) rfl
    (fun _ => rfl) (Nat.one_dvd key) h

/-- `jenkins_hash` returns the hash of the bytes of the key, whatever its address and in builds with
and without VALGRIND, exactly when all bytes that it reads can be read. -/
theorem jenkinsHash_eq_some (memory : Memory) (valgrind : Bool) (key length : Nat) (h : Word) :
    jenkinsHash memory valgrind key length = some h ↔
      memory.Readable key (span valgrind key length) ∧ hashlittle (memory.bytes key length) = h := by
  have words : key &&& 0x3 = key % 4 := Nat.and_two_pow_sub_one_eq_mod key 2
  have halves : key &&& 0x1 = key % 2 := Nat.and_two_pow_sub_one_eq_mod key 1
  have begins : start length = ⟨0xdeadbeef + BitVec.ofNat 32 length + 0, 0xdeadbeef + BitVec.ofNat 32 length + 0,
      0xdeadbeef + BitVec.ofNat 32 length + 0⟩ := by simp [start]
  rw [hashlittle, length_bytes, jenkinsHash, words, halves, ← begins]
  by_cases four : key % 4 = 0
  · have aligned : 4 ∣ key := Nat.dvd_of_mod_eq_zero four
    rw [if_pos four]
    cases valgrind with
    | false =>
      have whole_words : span false key length = 4 * ((length + 3) / 4) := if_pos ⟨four, rfl⟩
      rw [whole_words]
      exact hashBy_eq_some (fun _ => reads_block32) (fun _ _ => reads_last32) (by decide) rfl
        (fun length => by omega) aligned h
    | true =>
      have exactly : span true key length = length := if_neg (by simp)
      rw [exactly]
      exact hashBy_eq_some (fun _ => reads_block32) (fun _ _ => reads_last32Valgrind) (by decide) rfl
        (fun _ => rfl) aligned h
  · have exactly : span valgrind key length = length := if_neg fun both => four both.1
    rw [if_neg four, exactly]
    by_cases two : key % 2 = 0
    · rw [if_pos two]
      exact hashBy_eq_some (fun _ => reads_block16) (fun _ _ => reads_last16) (by decide) rfl (fun _ => rfl)
        (Nat.dvd_of_mod_eq_zero two) h
    · rw [if_neg two]
      have bytewise := bytewise_eq_some memory key length h
      rwa [hashlittle, length_bytes] at bytewise

theorem length_le_span (valgrind : Bool) (key length : Nat) : length ≤ span valgrind key length := by
  unfold span
  split <;> omega

/-- The paths that read words or halves of words agree with the one that reads bytes, in builds with and
without VALGRIND, apart from what must be readable. -/
theorem jenkinsHash_bytewise (memory : Memory) (valgrind : Bool) (key length : Nat) (h : Word) :
    jenkinsHash memory valgrind key length = some h ↔
      memory.Readable key (span valgrind key length) ∧
        hashBy (block8 memory) (last8 memory) (start length) length key = some h := by
  rw [jenkinsHash_eq_some, bytewise_eq_some]
  constructor
  · intro both
    exact ⟨both.1, readable_mono both.1 (length_le_span valgrind key length), both.2⟩
  · intro all
    exact ⟨all.1, all.2.2⟩

end

end EasyStressTest.JenkinsPaths
