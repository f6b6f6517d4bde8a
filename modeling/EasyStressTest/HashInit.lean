import EasyStressTest.JenkinsPaths
import EasyStressTest.MurmurPaths

/-!
`hash.c`: the pointer through which a hash is called, and `hash_init`, which sets it. Whichever
function it comes to point to, equal keys have equal hashes, wherever in memory they are.
-/

namespace EasyStressTest.HashInit
open LittleEndian JenkinsHash JenkinsPaths MurmurHash MurmurPaths

/-- `hash_func`. -/
abbrev HashFunc := Memory → Nat → Nat → Option Word

/-- `hashfunc_type`, which any `int` can be passed for. -/
def jenkinsHashType : Int32 := 0
def murmur3HashType : Int32 := 1

/-- The pointer after the call, and what the call returns. -/
def hashInit (valgrind : Bool) (hash : Option HashFunc) (type : Int32) : Option HashFunc × Int32 :=
  if type = jenkinsHashType then (some fun memory => jenkinsHash memory valgrind, 0)
  else if type = murmur3HashType then (some murmurHash3X8632, 0)
  else (hash, -1)

/-- The pointer, null at first, after calls with some types. -/
def hashAfter (valgrind : Bool) (types : List Int32) : Option HashFunc :=
  types.foldl (fun hash type => (hashInit valgrind hash type).1) none

section
variable {valgrind : Bool} {memory other : Memory} {key place length : Nat} {types : List Int32} {hash : HashFunc}

theorem hashAfter_snoc (valgrind : Bool) (types : List Int32) (type : Int32) :
    hashAfter valgrind (types ++ [type]) = (hashInit valgrind (hashAfter valgrind types) type).1 := by
  rw [hashAfter, List.foldl_append]
  rfl

/-- Only the two functions are ever pointed to. -/
theorem hashAfter_eq_some (installed : hashAfter valgrind types = some hash) :
    (hash = fun memory => jenkinsHash memory valgrind) ∨ hash = murmurHash3X8632 := by
  induction types using List.reverseRecOn generalizing hash with
  | nil => cases installed
  | append_singleton types type ih =>
    rw [hashAfter_snoc] at installed
    unfold hashInit at installed
    split at installed
    · exact Or.inl (Option.some.inj installed).symm
    · split at installed
      · exact Or.inr (Option.some.inj installed).symm
      · exact ih installed

theorem readable_span (granular : memory.WordGranular) (readable : memory.Readable key length) :
    memory.Readable key (span valgrind key length) := by
  rw [span]
  by_cases words : key % 4 = 0 ∧ valgrind = false
  · rw [if_pos words]
    exact readable_word granular (Nat.dvd_of_mod_eq_zero words.1) readable
  · rwa [if_neg words]

/-- Memory is protected by words at least, so what `jenkins_hash` reads behind the key can be read. -/
theorem jenkinsHash_some (granular : memory.WordGranular) (readable : memory.Readable key length) :
    jenkinsHash memory valgrind key length = some (hashlittle (memory.bytes key length)) :=
  (jenkinsHash_eq_some memory valgrind key length _).mpr ⟨readable_span granular readable, rfl⟩

theorem murmurHash3X8632_some (short : length < 2 ^ 31) (loads : 4 ≤ length → Loads memory key)
    (readable : memory.Readable key length) :
    murmurHash3X8632 memory key length = some (murmur3 (BitVec.ofNat 32 length) (memory.bytes key length)) := by
  have hashes : hashed length = some length := by
    rw [hashed, Nat.mod_eq_of_lt (by omega), if_pos short]
  exact (murmurHash3X8632_eq_some_of memory key hashes _).mpr ⟨loads, readable, rfl⟩

/-- Whatever `hash_init` was called with, the hash of a key is that of its bytes. -/
theorem hash_congr (installed : hashAfter valgrind types = some hash) (short : length < 2 ^ 31)
    (granular : memory.WordGranular) (readable : memory.Readable key length) (loads : 4 ≤ length → Loads memory key)
    (other_granular : other.WordGranular) (other_readable : other.Readable place length)
    (other_loads : 4 ≤ length → Loads other place) (same : memory.bytes key length = other.bytes place length) :
    ∃ h, hash memory key length = some h ∧ hash other place length = some h := by
  rcases hashAfter_eq_some installed with jenkins | murmur
  · subst jenkins
    refine ⟨_, jenkinsHash_some granular readable, ?_⟩
    rw [same]
    exact jenkinsHash_some other_granular other_readable
  · subst murmur
    refine ⟨_, murmurHash3X8632_some short loads readable, ?_⟩
    rw [same]
    exact murmurHash3X8632_some short other_loads other_readable

end

theorem hash_congr_moved : ∃ h, jenkinsHash (holding 8 [1, 2, 3, 4, 5]) false 8 5 = some h ∧
    jenkinsHash (holding 12 [1, 2, 3, 4, 5]) false 12 5 = some h := by
  have installed : hashAfter false [1, 0, 7] = some fun memory => jenkinsHash memory false := by rfl
  have granular : ∀ place, (holding place [1, 2, 3, 4, 5]).WordGranular := fun _ _ _ _ => rfl
  exact hash_congr installed (by decide) (granular 8) (by decide) (by decide) (granular 12) (by decide) (by decide)
    (by decide)

end EasyStressTest.HashInit
