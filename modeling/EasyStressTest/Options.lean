import Mathlib.Algebra.Ring.Int.Defs
import EasyStressTest.Define
import EasyStressTest.Search

/-! The configuration of `StressTest.h` and the argument loop of `main`. -/

namespace EasyStressTest.Options
open Define Search

abbrev CString := List Char

structure MainConfig where
  floodBegin : Bool
  taskCount : UInt32
  taskMinRunning : UInt32
  taskAddOnce : UInt32
  threadNum : UInt32
  scriptFile : CString
  libpath : CString
  deriving DecidableEq, Repr

/-- The initialiser of `main_config`. -/
def mainConfig : MainConfig where
  floodBegin := false
  taskCount := UInt32.ofInt (-1)
  taskMinRunning := UInt32.ofNat maxTaskCount
  taskAddOnce := UInt32.ofNat deaultTaskAdd
  threadNum := UInt32.ofNat deaultThreadNum
  scriptFile := []
  libpath := []

/-- `strstr(arg, key)` followed by `pargv + strlen(key)`. -/
def valueAfter (key arg : CString) : Option CString :=
  (search key arg).map fun position => arg.drop (position + key.length)

def isSpace (char : Char) : Bool :=
  char = ' ' || (9 ≤ char.toNat && char.toNat ≤ 13)

def decimalValue (digits : CString) : Nat :=
  (digits.takeWhile Char.isDigit).foldl (fun value digit => 10 * value + (digit.toNat - 48)) 0

/-- Out of range values are clamped to the limits of `long`. -/
def clampLong (longBits : Nat) (value : Int) : Int :=
  max (-2 ^ (longBits - 1)) (min value (2 ^ (longBits - 1) - 1))

def atol (longBits : Nat) (text : CString) : Int :=
  match text.dropWhile isSpace with
  | '-' :: digits => clampLong longBits (-decimalValue digits)
  | '+' :: digits => clampLong longBits (decimalValue digits)
  | digits => clampLong longBits (decimalValue digits)

/-- `atol` assigned to an `unsigned int` field. -/
def atolUnsigned (longBits : Nat) (text : CString) : UInt32 := UInt32.ofInt (atol longBits text)

def stricmp (left right : CString) : Bool := left.map Char.toLower = right.map Char.toLower

/-- One turn of the argument loop; `none` when the help is shown and `main` returns. -/
def parseArg (longBits : Nat) (config : MainConfig) (arg : CString) : Option MainConfig :=
  if let some value := valueAfter "-taskcount=".toList arg then
    some { config with taskCount := atolUnsigned longBits value }
  else if let some value := valueAfter "-c=".toList arg then
    some { config with taskCount := atolUnsigned longBits value }
  else if let some value := valueAfter "-task_min_running=".toList arg then
    some { config with taskMinRunning := atolUnsigned longBits value }
  else if let some value := valueAfter "-mc=".toList arg then
    some { config with taskMinRunning := atolUnsigned longBits value }
  else if let some value := valueAfter "-task_add_once=".toList arg then
    some { config with taskAddOnce := atolUnsigned longBits value }
  else if let some value := valueAfter "-ac=".toList arg then
    some { config with taskAddOnce := atolUnsigned longBits value }
  else if let some value := valueAfter "-thread=".toList arg then
    some { config with threadNum := atolUnsigned longBits value }
  else if let some value := valueAfter "-tn=".toList arg then
    some { config with threadNum := atolUnsigned longBits value }
  else if stricmp arg "-flood".toList then
    some { config with floodBegin := true }
  else if stricmp arg "-f".toList then
    some { config with floodBegin := true }
  else if let some value := valueAfter "-tcc=".toList arg then
    some { config with scriptFile := value }
  else if let some value := valueAfter "-libpath=".toList arg then
    some { config with libpath := value }
  else if stricmp arg "-help".toList || stricmp arg "/help".toList || stricmp arg "help".toList then
    none
  else
    some config

/-- The three checks after the loop. -/
def normalise (config : MainConfig) : MainConfig where
  floodBegin := config.floodBegin
  taskCount := config.taskCount
  taskAddOnce := if config.taskAddOnce ≤ 0 then 1 else config.taskAddOnce
  taskMinRunning := if config.taskMinRunning ≤ 0 then 1 else config.taskMinRunning
  threadNum := if config.threadNum ≤ 0 then 3 else config.threadNum
  scriptFile := config.scriptFile
  libpath := config.libpath

/-- The configuration with which `main` goes on after its argument loop. -/
def effectiveConfig (longBits : Nat) (argv : List CString) : Option MainConfig :=
  (argv.foldlM (parseArg longBits) mainConfig).map normalise

theorem normalise_positive (config : MainConfig) :
    1 ≤ (normalise config).taskMinRunning.toNat ∧ 1 ≤ (normalise config).taskAddOnce.toNat := by
  have positive : ∀ value : UInt32, 1 ≤ (if value ≤ 0 then 1 else value : UInt32).toNat := by
    intro value
    split
    · decide
    · next large =>
      rw [UInt32.le_iff_toNat_le] at large
      exact Nat.pos_of_ne_zero (fun zero => large (Nat.le_of_eq zero))
  exact ⟨positive config.taskMinRunning, positive config.taskAddOnce⟩

/-- The timer always keeps at least one task running and adds at least one at a time. -/
theorem effectiveConfig_positive {longBits : Nat} {argv : List CString} {config : MainConfig}
    (effective : effectiveConfig longBits argv = some config) :
    1 ≤ config.taskMinRunning.toNat ∧ 1 ≤ config.taskAddOnce.toNat := by
  obtain ⟨parsed, _, same⟩ := Option.map_eq_some_iff.mp effective
  rw [← same]
  exact normalise_positive parsed

end EasyStressTest.Options
