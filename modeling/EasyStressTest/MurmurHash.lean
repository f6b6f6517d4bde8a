import EasyStressTest.LittleEndian

/-!
`MurmurHash3_x86_32` and `MurmurHash3_x86_128` of `third/hash/murmur3_hash.c`. Both load the blocks
of the key as words wherever it is, backwards from an address behind the last of them, with a loop
that counts an `int` up to 0; a signed overflow of the count is `none`, as is a load that fails.
-/

namespace EasyStressTest.MurmurHash
open Words LittleEndian

/-- `ROTL32`. -/
def rotl32 (x : Word) (r : Nat) : Word := rotl x r

def fmix32 (h : Word) : Word :=
  let h := xorShift h 16
  let h := h * 0x85ebca6b
  let h := xorShift h 13
  let h := h * 0xc2b2ae35
  xorShift h 16

/-- What is made of a block before it goes into the hash. -/
def scramble (c1 : Word) (r : Nat) (c2 : Word) (k1 : Word) : Word :=
  let k1 := k1 * c1
  let k1 := rotl32 k1 r
  k1 * c2

/-- `for (int i = -nblocks; i; i++)`. -/
def forBlocks {State : Type} (turn : Int → State → Option State) (i : Int) (s : State) : Option State :=
  if i = 0 then some s
  else do
    let s ← turn i s
    if 2 ^ 31 - 1 ≤ i then none else forBlocks turn (i + 1) s
termination_by (2 ^ 31 - 1 - i).toNat

section
variable (memory : Memory)

def getblock32 (p i : Int) : Option Word := memory.load 4 (p + 4 * i).toNat

/-! 32 bits. -/

def c1 : Word := 0xcc9e2d51
def c2 : Word := 0x1b873593

def turn32 (blocks i : Int) (h1 : Word) : Option Word := do
  let k1 ← getblock32 memory blocks i
  let k1 := scramble c1 15 c2 k1
  let h1 := h1 ^^^ k1
  let h1 := rotl32 h1 13
  some (h1 * 5 + 0xe6546b64)

/-- The switch over `length & 3`, of which every case goes on to the next. -/
def tail32 (tail rest : Nat) (h1 : Word) : Option Word :=
  let case1 (k1 : Word) : Option Word := do
    let k1 := k1 ^^^ (← memory.index 1 tail 0)
    some (h1 ^^^ scramble c1 15 c2 k1)
  let case2 (k1 : Word) : Option Word := do case1 (k1 ^^^ (← memory.index 1 tail 1) <<< 8)
  let case3 (k1 : Word) : Option Word := do case2 (k1 ^^^ (← memory.index 1 tail 2) <<< 16)
  match rest with
  | 3 => case3 0
  | 2 => case2 0
  | 1 => case1 0
  | _ => some h1

/-- The length of the key is converted to `int` for the blocks and to `uint32_t` for the end. -/
def murmurHash3X8632 (key length : Nat) : Option Word := do
  let nblocks := (Int32.ofNat length).toInt.tdiv 4
  let blocks : Int := key + nblocks * 4
  let h1 ← forBlocks (turn32 memory blocks) (-nblocks) 0
  let h1 ← tail32 memory blocks.toNat (length &&& 3) h1
  let h1 := h1 ^^^ BitVec.ofNat 32 length
  some (fmix32 h1)

/-! 128 bits. -/

structure Hash128 where
  h1 : Word
  h2 : Word
  h3 : Word
  h4 : Word
  deriving DecidableEq

def c1x128 : Word := 0x239b961b
def c2x128 : Word := 0xab0e9789
def c3x128 : Word := 0x38b34ae5
def c4x128 : Word := 0xa1e38b93

/-- One turn of the loop on the words of its block. -/
def mix128 (k1 k2 k3 k4 : Word) : Hash128 → Hash128
  | ⟨h1, h2, h3, h4⟩ =>
    let h1 := h1 ^^^ scramble c1x128 15 c2x128 k1
    let h1 := rotl32 h1 19; let h1 := h1 + h2; let h1 := h1 * 5 + 0x561ccd1b
    let h2 := h2 ^^^ scramble c2x128 16 c3x128 k2
    let h2 := rotl32 h2 17; let h2 := h2 + h3; let h2 := h2 * 5 + 0x0bcaa747
    let h3 := h3 ^^^ scramble c3x128 17 c4x128 k3
    let h3 := rotl32 h3 15; let h3 := h3 + h4; let h3 := h3 * 5 + 0x96cd1c35
    let h4 := h4 ^^^ scramble c4x128 18 c1x128 k4
    let h4 := rotl32 h4 13; let h4 := h4 + h1; let h4 := h4 * 5 + 0x32ac3b17
    ⟨h1, h2, h3, h4⟩

def turn128 (blocks i : Int) (s : Hash128) : Option Hash128 := do
  let k1 ← getblock32 memory blocks (i * 4 + 0)
  let k2 ← getblock32 memory blocks (i * 4 + 1)
  let k3 ← getblock32 memory blocks (i * 4 + 2)
  let k4 ← getblock32 memory blocks (i * 4 + 3)
  some (mix128 k1 k2 k3 k4 s)

/-- The switch over `len & 15`, of which every case goes on to the next. -/
def tail128 (tail rest : Nat) (s : Hash128) : Option Hash128 :=
  let k8 := memory.index 1 tail
  let case1 (k1 : Word) (s : Hash128) : Option Hash128 := do
    let k1 := k1 ^^^ (← k8 0) <<< 0
    some { s with h1 := s.h1 ^^^ scramble c1x128 15 c2x128 k1 }
  let case2 (k1 : Word) (s : Hash128) : Option Hash128 := do case1 (k1 ^^^ (← k8 1) <<< 8) s
  let case3 (k1 : Word) (s : Hash128) : Option Hash128 := do case2 (k1 ^^^ (← k8 2) <<< 16) s
  let case4 (k1 : Word) (s : Hash128) : Option Hash128 := do case3 (k1 ^^^ (← k8 3) <<< 24) s
  let case5 (k2 : Word) (s : Hash128) : Option Hash128 := do
    let k2 := k2 ^^^ (← k8 4) <<< 0
    case4 0 { s with h2 := s.h2 ^^^ scramble c2x128 16 c3x128 k2 }
  let case6 (k2 : Word) (s : Hash128) : Option Hash128 := do case5 (k2 ^^^ (← k8 5) <<< 8) s
  let case7 (k2 : Word) (s : Hash128) : Option Hash128 := do case6 (k2 ^^^ (← k8 6) <<< 16) s
  let case8 (k2 : Word) (s : Hash128) : Option Hash128 := do case7 (k2 ^^^ (← k8 7) <<< 24) s
  let case9 (k3 : Word) (s : Hash128) : Option Hash128 := do
    let k3 := k3 ^^^ (← k8 8) <<< 0
    case8 0 { s with h3 := s.h3 ^^^ scramble c3x128 17 c4x128 k3 }
  let case10 (k3 : Word) (s : Hash128) : Option Hash128 := do case9 (k3 ^^^ (← k8 9) <<< 8) s
  let case11 (k3 : Word) (s : Hash128) : Option Hash128 := do case10 (k3 ^^^ (← k8 10) <<< 16) s
  let case12 (k3 : Word) (s : Hash128) : Option Hash128 := do case11 (k3 ^^^ (← k8 11) <<< 24) s
  let case13 (k4 : Word) (s : Hash128) : Option Hash128 := do
    let k4 := k4 ^^^ (← k8 12) <<< 0
    case12 0 { s with h4 := s.h4 ^^^ scramble c4x128 18 c1x128 k4 }
  let case14 (k4 : Word) (s : Hash128) : Option Hash128 := do case13 (k4 ^^^ (← k8 13) <<< 8) s
  let case15 (k4 : Word) (s : Hash128) : Option Hash128 := do case14 (k4 ^^^ (← k8 14) <<< 16) s
  match rest with
  | 15 => case15 0 s
  | 14 => case14 0 s
  | 13 => case13 0 s
  | 12 => case12 0 s
  | 11 => case11 0 s
  | 10 => case10 0 s
  | 9 => case9 0 s
  | 8 => case8 0 s
  | 7 => case7 0 s
  | 6 => case6 0 s
  | 5 => case5 0 s
  | 4 => case4 0 s
  | 3 => case3 0 s
  | 2 => case2 0 s
  | 1 => case1 0 s
  | _ => some s

/-- `h1 += h2; h1 += h3; h1 += h4; h2 += h1; h3 += h1; h4 += h1`. -/
def cross : Hash128 → Hash128
  | ⟨h1, h2, h3, h4⟩ =>
    let h1 := h1 + h2; let h1 := h1 + h3; let h1 := h1 + h4
    ⟨h1, h2 + h1, h3 + h1, h4 + h1⟩

def finalize128 (len : Word) : Hash128 → Hash128
  | ⟨h1, h2, h3, h4⟩ =>
    let s := cross ⟨h1 ^^^ len, h2 ^^^ len, h3 ^^^ len, h4 ^^^ len⟩
    cross ⟨fmix32 s.h1, fmix32 s.h2, fmix32 s.h3, fmix32 s.h4⟩

/-- What is stored at `out`. -/
def murmurHash3X86128 (key : Nat) (len : Int32) (seed : Word) : Option Hash128 := do
  let nblocks := len.toInt.tdiv 16
  let blocks : Int := key + nblocks * 16
  let s ← forBlocks (turn128 memory blocks) (-nblocks) ⟨seed, seed, seed, seed⟩
  let s ← tail128 memory blocks.toNat (len &&& 15).toInt.toNat s
  some (finalize128 len.toBitVec s)

end

end EasyStressTest.MurmurHash
