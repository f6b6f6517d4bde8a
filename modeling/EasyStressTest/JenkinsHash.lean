import EasyStressTest.LittleEndian

/-!
`jenkins_hash` of `third/hash/jenkins_hash.c`, as `hash.h` has it compiled: for a little-endian
machine. It reads the key in pieces that depend on its address: 4 bytes at a time, 2, or 1, and
in each of the three ways it has a loop over the blocks of 12 bytes and a switch for what is left.
A read of an address that cannot be read is `none`.
-/

namespace EasyStressTest.JenkinsHash
open Words LittleEndian

/-- The internal state. -/
structure State where
  a : Word
  b : Word
  c : Word
  deriving DecidableEq

def rot (x : Word) (k : Nat) : Word := rotlXor x k

def mix : State → State
  | ⟨a, b, c⟩ =>
    let a := a - c; let a := a ^^^ rot c 4; let c := c + b
    let b := b - a; let b := b ^^^ rot a 6; let a := a + c
    let c := c - b; let c := c ^^^ rot b 8; let b := b + a
    let a := a - c; let a := a ^^^ rot c 16; let c := c + b
    let b := b - a; let b := b ^^^ rot a 19; let a := a + c
    let c := c - b; let c := c ^^^ rot b 4; let b := b + a
    ⟨a, b, c⟩

def final : State → State
  | ⟨a, b, c⟩ =>
    let c := c ^^^ b; let c := c - rot b 14
    let a := a ^^^ c; let a := a - rot c 11
    let b := b ^^^ a; let b := b - rot a 25
    let c := c ^^^ b; let c := c - rot b 16
    let a := a ^^^ c; let a := a - rot c 4
    let b := b ^^^ a; let b := b - rot a 14
    let c := c ^^^ b; let c := c - rot b 24
    ⟨a, b, c⟩

section
variable (memory : Memory)

/-- `while (length > 12)`, where one turn takes a block at k. -/
def whileBlocks (block : Nat → State → Option State) (length k : Nat) (s : State) :
    Option (State × Nat × Nat) :=
  if length > 12 then do
    let s ← block k s
    whileBlocks block (length - 12) (k + 12) (mix s)
  else some (s, length, k)
termination_by length

/-! 4 bytes at a time. -/

def block32 (k : Nat) (s : State) : Option State := do
  let s := { s with a := s.a + (← memory.index 4 k 0) }
  let s := { s with b := s.b + (← memory.index 4 k 1) }
  some { s with c := s.c + (← memory.index 4 k 2) }

/-- The switch of a build without VALGRIND, which reads the last word as a whole. -/
def last32 (length k : Nat) (s : State) : Option State :=
  let k32 := memory.index 4 k
  let case4 (s : State) : Option State := do some { s with a := s.a + (← k32 0) }
  let case8 (s : State) : Option State := do case4 { s with b := s.b + (← k32 1) }
  match length with
  | 12 => do case8 { s with c := s.c + (← k32 2) }
  | 11 => do case8 { s with c := s.c + ((← k32 2) &&& 0xffffff) }
  | 10 => do case8 { s with c := s.c + ((← k32 2) &&& 0xffff) }
  | 9 => do case8 { s with c := s.c + ((← k32 2) &&& 0xff) }
  | 8 => case8 s
  | 7 => do case4 { s with b := s.b + ((← k32 1) &&& 0xffffff) }
  | 6 => do case4 { s with b := s.b + ((← k32 1) &&& 0xffff) }
  | 5 => do case4 { s with b := s.b + ((← k32 1) &&& 0xff) }
  | 4 => case4 s
  | 3 => do some { s with a := s.a + ((← k32 0) &&& 0xffffff) }
  | 2 => do some { s with a := s.a + ((← k32 0) &&& 0xffff) }
  | 1 => do some { s with a := s.a + ((← k32 0) &&& 0xff) }
  | _ => some s

/-- The switch of a build with VALGRIND. A case without a break goes on to the next. -/
def last32Valgrind (length k : Nat) (s : State) : Option State :=
  let k32 := memory.index 4 k
  let k8 := memory.index 1 k
  let case1 (s : State) : Option State := do some { s with a := s.a + (← k8 0) }
  let case2 (s : State) : Option State := do case1 { s with a := s.a + (← k8 1) <<< 8 }
  let case3 (s : State) : Option State := do case2 { s with a := s.a + (← k8 2) <<< 16 }
  let case4 (s : State) : Option State := do some { s with a := s.a + (← k32 0) }
  let case5 (s : State) : Option State := do case4 { s with b := s.b + (← k8 4) }
  let case6 (s : State) : Option State := do case5 { s with b := s.b + (← k8 5) <<< 8 }
  let case7 (s : State) : Option State := do case6 { s with b := s.b + (← k8 6) <<< 16 }
  let case8 (s : State) : Option State := do case4 { s with b := s.b + (← k32 1) }
  let case9 (s : State) : Option State := do case8 { s with c := s.c + (← k8 8) }
  let case10 (s : State) : Option State := do case9 { s with c := s.c + (← k8 9) <<< 8 }
  let case11 (s : State) : Option State := do case10 { s with c := s.c + (← k8 10) <<< 16 }
  let case12 (s : State) : Option State := do case8 { s with c := s.c + (← k32 2) }
  match length with
  | 12 => case12 s
  | 11 => case11 s
  | 10 => case10 s
  | 9 => case9 s
  | 8 => case8 s
  | 7 => case7 s
  | 6 => case6 s
  | 5 => case5 s
  | 4 => case4 s
  | 3 => case3 s
  | 2 => case2 s
  | 1 => case1 s
  | _ => some s

/-! 2 bytes at a time. -/

/-- `k[i] + (((uint32_t)k[i + 1]) << 16)`. -/
def wide (k i : Nat) : Option Word := do
  some ((← memory.index 2 k i) + (← memory.index 2 k (i + 1)) <<< 16)

def block16 (k : Nat) (s : State) : Option State := do
  let s := { s with a := s.a + (← wide memory k 0) }
  let s := { s with b := s.b + (← wide memory k 2) }
  some { s with c := s.c + (← wide memory k 4) }

def last16 (length k : Nat) (s : State) : Option State :=
  let k16 := memory.index 2 k
  let k8 := memory.index 1 k
  let case1 (s : State) : Option State := do some { s with a := s.a + (← k8 0) }
  let case2 (s : State) : Option State := do some { s with a := s.a + (← k16 0) }
  let case3 (s : State) : Option State := do case2 { s with a := s.a + (← k8 2) <<< 16 }
  let case4 (s : State) : Option State := do some { s with a := s.a + (← wide memory k 0) }
  let case5 (s : State) : Option State := do case4 { s with b := s.b + (← k8 4) }
  let case6 (s : State) : Option State := do case4 { s with b := s.b + (← k16 2) }
  let case7 (s : State) : Option State := do case6 { s with b := s.b + (← k8 6) <<< 16 }
  let case8 (s : State) : Option State := do case4 { s with b := s.b + (← wide memory k 2) }
  let case9 (s : State) : Option State := do case8 { s with c := s.c + (← k8 8) }
  let case10 (s : State) : Option State := do case8 { s with c := s.c + (← k16 4) }
  let case11 (s : State) : Option State := do case10 { s with c := s.c + (← k8 10) <<< 16 }
  let case12 (s : State) : Option State := do case8 { s with c := s.c + (← wide memory k 4) }
  match length with
  | 12 => case12 s
  | 11 => case11 s
  | 10 => case10 s
  | 9 => case9 s
  | 8 => case8 s
  | 7 => case7 s
  | 6 => case6 s
  | 5 => case5 s
  | 4 => case4 s
  | 3 => case3 s
  | 2 => case2 s
  | 1 => case1 s
  | _ => some s

/-! 1 byte at a time. -/

def block8 (k : Nat) (s : State) : Option State := do
  let s := { s with a := s.a + (← memory.index 1 k 0) }
  let s := { s with a := s.a + (← memory.index 1 k 1) <<< 8 }
  let s := { s with a := s.a + (← memory.index 1 k 2) <<< 16 }
  let s := { s with a := s.a + (← memory.index 1 k 3) <<< 24 }
  let s := { s with b := s.b + (← memory.index 1 k 4) }
  let s := { s with b := s.b + (← memory.index 1 k 5) <<< 8 }
  let s := { s with b := s.b + (← memory.index 1 k 6) <<< 16 }
  let s := { s with b := s.b + (← memory.index 1 k 7) <<< 24 }
  let s := { s with c := s.c + (← memory.index 1 k 8) }
  let s := { s with c := s.c + (← memory.index 1 k 9) <<< 8 }
  let s := { s with c := s.c + (← memory.index 1 k 10) <<< 16 }
  some { s with c := s.c + (← memory.index 1 k 11) <<< 24 }

/-- Here every case goes on to the next. -/
def last8 (length k : Nat) (s : State) : Option State :=
  let k8 := memory.index 1 k
  let case1 (s : State) : Option State := do some { s with a := s.a + (← k8 0) }
  let case2 (s : State) : Option State := do case1 { s with a := s.a + (← k8 1) <<< 8 }
  let case3 (s : State) : Option State := do case2 { s with a := s.a + (← k8 2) <<< 16 }
  let case4 (s : State) : Option State := do case3 { s with a := s.a + (← k8 3) <<< 24 }
  let case5 (s : State) : Option State := do case4 { s with b := s.b + (← k8 4) }
  let case6 (s : State) : Option State := do case5 { s with b := s.b + (← k8 5) <<< 8 }
  let case7 (s : State) : Option State := do case6 { s with b := s.b + (← k8 6) <<< 16 }
  let case8 (s : State) : Option State := do case7 { s with b := s.b + (← k8 7) <<< 24 }
  let case9 (s : State) : Option State := do case8 { s with c := s.c + (← k8 8) }
  let case10 (s : State) : Option State := do case9 { s with c := s.c + (← k8 9) <<< 8 }
  let case11 (s : State) : Option State := do case10 { s with c := s.c + (← k8 10) <<< 16 }
  let case12 (s : State) : Option State := do case11 { s with c := s.c + (← k8 11) <<< 24 }
  match length with
  | 12 => case12 s
  | 11 => case11 s
  | 10 => case10 s
  | 9 => case9 s
  | 8 => case8 s
  | 7 => case7 s
  | 6 => case6 s
  | 5 => case5 s
  | 4 => case4 s
  | 3 => case3 s
  | 2 => case2 s
  | 1 => case1 s
  | _ => some s

/-- One of the three ways through the key. A length of 0 needs no mixing. -/
def hashBy (block : Nat → State → Option State) (last : Nat → Nat → State → Option State) (s : State)
    (length key : Nat) : Option Word := do
  let (s, length, k) ← whileBlocks block length key s
  if length = 0 then some s.c
  else do
    let s ← last length k s
    some (final s).c

def jenkinsHash (valgrind : Bool) (key length : Nat) : Option Word :=
  let initial : Word := 0xdeadbeef + BitVec.ofNat 32 length + 0
  let s : State := ⟨initial, initial, initial⟩
  if key &&& 0x3 = 0 then
    hashBy (block32 memory) (if valgrind then last32Valgrind memory else last32 memory) s length key
  else if key &&& 0x1 = 0 then hashBy (block16 memory) (last16 memory) s length key
  else hashBy (block8 memory) (last8 memory) s length key

end

end EasyStressTest.JenkinsHash
