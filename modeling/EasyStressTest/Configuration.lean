import EasyStressTest.Normalisation

/-!
The configuration with which `main` goes on, for any arguments at all: documented options, paths that
contain a key, flags in any case, and whatever else is passed over. And which configurations come back
when they are written out as arguments.
-/

namespace EasyStressTest.Configuration
open Define Options Arguments Normalisation

instance (field : Field) : Decidable (Checked field) := inferInstanceAs (Decidable (_ ∨ _ ∨ _))

/-- The three checks, on the value of one field. -/
def checks (field : Field) : Value → Value
  | .number value => .number (if Checked field ∧ value ≤ 0 then fallback field else value)
  | .text value => .text value

/-- What the arguments make of a field: the last text for it, or its default, and then the check. -/
def outcome (longBits : Nat) (argv : List CString) (field : Field) : Value :=
  checks field (settled longBits (get mainConfig field) field (valuesOf argv))

section
variable {longBits : Nat} {argv : List CString} {config : MainConfig}

theorem get_checks (config : MainConfig) (field : Field) :
    get (normalise config) field = checks field (get config field) := by
  cases field with
  | taskCount => simp [checks, Arguments.get, normalise, Checked]
  | taskMinRunning => simp [checks, Arguments.get, normalise, Checked, fallback]
  | taskAddOnce => simp [checks, Arguments.get, normalise, Checked, fallback]
  | threadNum => simp [checks, Arguments.get, normalise, Checked, fallback]
  | scriptFile => rfl
  | libpath => rfl

/-- What `main` goes on with when no argument asks for help. -/
theorem goes_on (longBits : Nat) (unhelped : ∀ arg ∈ argv, reading arg ≠ .help) :
    ∃ result, effectiveConfig longBits argv = some result ∧
      (result.floodBegin = true ↔ ∃ arg ∈ argv, reading arg = .flood) ∧
        ∀ field, get result field = outcome longBits argv field := by
  obtain ⟨parsed, returns, flood, values⟩ := (loop_spec longBits argv mainConfig).2 unhelped
  have unset : ¬mainConfig.floodBegin = true := Bool.false_ne_true
  rw [or_iff_right unset] at flood
  refine ⟨normalise parsed, ?_, flood, ?_⟩
  · rw [effectiveConfig, returns, Option.map_some]
  · intro field
    rw [get_checks, values, outcome]

/-- `main` goes on with a configuration exactly when no argument is read as a request for help, the flood
flag is set when one is read as it, and every field is what the arguments make of it. -/
theorem effectiveConfig_iff :
    effectiveConfig longBits argv = some config ↔
      (∀ arg ∈ argv, reading arg ≠ .help) ∧
        (config.floodBegin = true ↔ ∃ arg ∈ argv, reading arg = .flood) ∧
          ∀ field, get config field = outcome longBits argv field := by
  by_cases help : ∃ arg ∈ argv, reading arg = .help
  · rw [effectiveConfig, (loop_spec longBits argv mainConfig).1 help]
    apply iff_of_false
    · intro returns
      cases returns
    · intro all
      obtain ⟨arg, member, same⟩ := help
      exact all.1 arg member same
  · have unhelped : ∀ arg ∈ argv, reading arg ≠ .help := fun arg member same => help ⟨arg, member, same⟩
    obtain ⟨result, returns, flood, fields⟩ := goes_on longBits unhelped
    rw [returns, Option.some_inj]
    constructor
    · intro same
      subst same
      exact ⟨unhelped, flood, fields⟩
    · intro all
      apply config_ext
      · rw [Bool.eq_iff_iff, all.2.1]
        exact flood
      · intro field
        rw [fields, all.2.2]

end

/-! Configurations as command lines. -/

/-- The number that an unsigned field takes from a `long` of any width, for a value from 2 ^ 31 on a
negative one. -/
def numberFor (value : UInt32) : Int := if value.toNat < 2 ^ 31 then value.toNat else value.toNat - 2 ^ 32

def optionsFor (config : MainConfig) : List ValueOption :=
  [⟨.taskcount, decimal (numberFor config.taskCount)⟩, ⟨.taskMinRunning, decimal (numberFor config.taskMinRunning)⟩,
    ⟨.taskAddOnce, decimal (numberFor config.taskAddOnce)⟩, ⟨.thread, decimal (numberFor config.threadNum)⟩,
    ⟨.tcc, config.scriptFile⟩, ⟨.libpath, config.libpath⟩]

def commandLine (program : CString) (config : MainConfig) : List CString :=
  program :: ((if config.floodBegin then ["-flood".toList] else []) ++ (optionsFor config).map ValueOption.arg)

section
variable {longBits : Nat} {program arg text : CString} {config : MainConfig} {key other : Key} {field : Field}

theorem firstKey_spec {keys : List Key} (first : firstKey keys arg = some (key, text)) :
    valueAfter key.text arg = some text ∧ ∀ other ∈ keys.takeWhile (· ≠ key), valueAfter other.text arg = none := by
  induction keys with
  | nil => cases first
  | cons head rest ih =>
    rw [firstKey, List.findSome?_cons] at first
    cases found : valueAfter head.text arg with
    | some own =>
      rw [found] at first
      cases first
      exact ⟨found, by simp⟩
    | none =>
      rw [found] at first
      obtain ⟨value, tried⟩ := ih first
      refine ⟨value, fun other before => ?_⟩
      by_cases same : head = key
      · rw [same] at found
        rw [found] at value
        cases value
      · rw [List.takeWhile_cons_of_pos (by simpa using same)] at before
        rcases List.mem_cons.mp before with here | later
        · rw [here]
          exact found
        · exact tried other later

/-- What is read as a value is what follows its key, and no key that is tried earlier occurs. -/
theorem reading_spec (read : reading arg = .value key text) :
    valueAfter key.text arg = some text ∧ ∀ other ∈ triedBefore key, valueAfter other.text arg = none := by
  have first : firstKey chain arg = some (key, text) := by
    rw [firstKey_chain]
    unfold reading at read
    split at read
    next found early =>
      cases read
      rw [early, Option.some_or]
    next late =>
      rw [late, Option.none_or]
      split at read
      next => cases read
      next =>
        split at read
        next found after =>
          cases read
          exact after
        next => split at read <;> cases read
  exact firstKey_spec first

/-- Only a key itself stands at the front of its option. -/
theorem reading_own {value : CString} (read : reading (key.text ++ value) = .value key text) : text = value := by
  have found := (reading_spec read).1
  rw [valueAfter_own] at found
  exact (Option.some.inj found).symm

theorem atolUnsigned_numberFor (wide : 32 ≤ longBits) (value : UInt32) :
    atolUnsigned longBits (decimal (numberFor value)) = value := by
  have small : value.toNat < 2 ^ 32 := value.toNat_lt
  have power : (2 ^ 31 : Nat) ≤ 2 ^ (longBits - 1) := Nat.pow_le_pow_right (by decide) (by omega)
  have bound : (2 : Int) ^ 31 ≤ 2 ^ (longBits - 1) := by exact_mod_cast power
  have range : -2 ^ (longBits - 1) ≤ numberFor value ∧ numberFor value < 2 ^ (longBits - 1) := by
    unfold numberFor
    split <;> omega
  have wraps : numberFor value % 2 ^ 32 = value.toNat := by
    unfold numberFor
    split <;> omega
  have wrapped := toNat_ofInt (numberFor value)
  rw [atolUnsigned, atol_numeral (numeral_decimal _), clampLong_of_range range.1 range.2, ← UInt32.toNat_inj]
  omega

theorem checks_positive (checked : Checked field) (value : Value) : checks field value ≠ .number 0 := by
  cases value with
  | text value => simp [checks]
  | number value =>
    simp only [checks, checked, true_and]
    split
    next low => rcases checked with same | same | same <;> subst same <;> decide
    next high =>
      intro zero
      rw [Value.number.inj zero] at high
      exact high (Nat.le_refl _)

theorem checks_kept {value : Value} (positive : Checked field → value ≠ .number 0) : checks field value = value := by
  cases value with
  | text value => rfl
  | number value =>
    rw [checks, if_neg]
    intro low
    apply positive low.1
    rw [UInt32.le_zero_iff.mp low.2]

/-- The texts that the loop takes from the command line of a configuration. -/
theorem valuesOf_commandLine (named : reading program = .nothing) : valuesOf (commandLine program config) =
    [(.taskCount, decimal (numberFor config.taskCount)), (.taskMinRunning, decimal (numberFor config.taskMinRunning)),
      (.taskAddOnce, decimal (numberFor config.taskAddOnce)), (.threadNum, decimal (numberFor config.threadNum))] ++
    valuesOf [ValueOption.arg ⟨.tcc, config.scriptFile⟩, ValueOption.arg ⟨.libpath, config.libpath⟩] := by
  have flag : reading "-flood".toList = .flood := by decide
  have number : ∀ key value, reading (ValueOption.arg ⟨key, decimal (numberFor value)⟩) =
      .value key (decimal (numberFor value)) := fun key value => reading_numeral (numeral_decimal _) key
  cases flood : config.floodBegin <;>
    simp only [commandLine, optionsFor, flood, valuesOf, List.filterMap_cons, List.map_cons, List.map_nil,
      List.cons_append, List.nil_append, if_true, Bool.false_eq_true, if_false, named, flag, number] <;> rfl

/-- Every argument of the command line is read as a value, or is the program's name or the flag. -/
theorem reading_commandLine (config : MainConfig) (named : reading program = .nothing) :
    ∀ arg ∈ commandLine program config, reading arg ≠ .help ∧ (reading arg = .flood → config.floodBegin = true) := by
  intro arg member
  rw [commandLine, List.mem_cons, List.mem_append, List.mem_map] at member
  rcases member with same | flag | ⟨option, _, same⟩
  · rw [same, named]
    exact ⟨by decide, fun flood => by cases flood⟩
  · split at flag
    next flood =>
      rw [List.mem_singleton.mp flag]
      exact ⟨by decide, fun _ => flood⟩
    next => cases flag
  · obtain ⟨key, text, read⟩ := reading_option option
    rw [← same, read]
    exact ⟨Reading.noConfusion, Reading.noConfusion⟩

/-- The three checks leave the numbers, and the paths are read as what they are. -/
def Givable (config : MainConfig) : Prop :=
  (∀ field, Checked field → get config field ≠ .number 0) ∧
    reading (ValueOption.arg ⟨.tcc, config.scriptFile⟩) = .value .tcc config.scriptFile ∧
      reading (ValueOption.arg ⟨.libpath, config.libpath⟩) = .value .libpath config.libpath

/-- What `main` goes on with is the configuration itself when every field comes back. -/
theorem commandLine_fields (named : reading program = .nothing) :
    effectiveConfig longBits (commandLine program config) = some config ↔
      ∀ field, get config field = outcome longBits (commandLine program config) field := by
  have read := reading_commandLine config named
  obtain ⟨result, returns, flood, fields⟩ :=
    goes_on longBits fun arg member => (read arg member).1
  rw [returns, Option.some_inj]
  constructor
  · intro same
    subst same
    exact fields
  · intro kept
    apply config_ext
    · rw [Bool.eq_iff_iff, flood]
      constructor
      · intro flagged
        obtain ⟨arg, member, same⟩ := flagged
        exact (read arg member).2 same
      · intro set
        refine ⟨"-flood".toList, ?_, by decide⟩
        simp [commandLine, set]
    · intro field
      rw [fields, kept]

/-- The last text for a path comes from the options for the two paths. -/
theorem lastFor_path (named : reading program = .nothing) (path : field = .scriptFile ∨ field = .libpath)
    {script lib : Key} {first second : CString}
    (readScript : reading (ValueOption.arg ⟨.tcc, config.scriptFile⟩) = .value script first)
    (readLib : reading (ValueOption.arg ⟨.libpath, config.libpath⟩) = .value lib second) :
    lastFor field (valuesOf (commandLine program config)) =
      (if lib.field = field then some second else none).or (if script.field = field then some first else none) := by
  have paths : valuesOf [ValueOption.arg ⟨.tcc, config.scriptFile⟩, ValueOption.arg ⟨.libpath, config.libpath⟩] =
      [(script.field, first), (lib.field, second)] := by
    simp [valuesOf, readScript, readLib]
  rw [valuesOf_commandLine named, lastFor_append, paths]
  rcases path with same | same <;> subst same <;> simp [lastFor]

/-- The option for the script is never read as one for the library path, which is tried later. -/
theorem script_not_lib {value : CString} (read : reading (ValueOption.arg ⟨.tcc, value⟩) = .value .libpath text) :
    False := by
  have tried := (reading_spec read).2 .tcc (by decide)
  rw [ValueOption.arg, valueAfter_own] at tried
  cases tried

theorem key_of_libpath (same : key.field = .libpath) : key = .libpath := by
  cases key <;> first | rfl | cases same

theorem key_of_scriptFile (same : key.field = .scriptFile) : key = .tcc := by
  cases key <;> first | rfl | cases same

/-- A field for which nothing is read has its default. -/
theorem get_silent (kept : ∀ field, get config field = outcome longBits (commandLine program config) field)
    (silent : lastFor field (valuesOf (commandLine program config)) = none) :
    get config field = checks field (get mainConfig field) := by
  rw [kept, outcome, settled, silent]

/-- Exactly the configurations that pass the three checks, and whose paths are read as what they are, can
be given to `main` as a command line. -/
theorem commandLine_iff (wide : 32 ≤ longBits) (named : reading program = .nothing) :
    effectiveConfig longBits (commandLine program config) = some config ↔ Givable config := by
  rw [commandLine_fields named]
  obtain ⟨script, first, readScript⟩ := reading_option ⟨.tcc, config.scriptFile⟩
  obtain ⟨lib, second, readLib⟩ := reading_option ⟨.libpath, config.libpath⟩
  constructor
  · intro kept
    have positive : ∀ field, Checked field → get config field ≠ .number 0 := by
      intro field checked
      rw [kept]
      exact checks_positive checked _
    have ownLib : lib = .libpath := by
      by_contra other
      have silent : lastFor .libpath (valuesOf (commandLine program config)) = none := by
        rw [lastFor_path named (Or.inr rfl) readScript readLib, if_neg (fun same => other (key_of_libpath same)),
          if_neg fun same => ?_]
        · rfl
        · rw [key_of_libpath same] at readScript
          exact script_not_lib readScript
      have empty : config.libpath = [] := Value.text.inj (get_silent kept silent)
      have own : reading (ValueOption.arg ⟨.libpath, []⟩) = .value .libpath [] := by decide
      rw [empty, own] at readLib
      exact other (Reading.value.inj readLib).1.symm
    subst ownLib
    have ownScript : script = .tcc := by
      by_contra other
      have silent : lastFor .scriptFile (valuesOf (commandLine program config)) = none := by
        rw [lastFor_path named (Or.inl rfl) readScript readLib, if_neg (by decide),
          if_neg fun same => other (key_of_scriptFile same)]
        rfl
      have empty : config.scriptFile = [] := Value.text.inj (get_silent kept silent)
      have own : reading (ValueOption.arg ⟨.tcc, []⟩) = .value .tcc [] := by decide
      rw [empty, own] at readScript
      exact other (Reading.value.inj readScript).1.symm
    subst ownScript
    refine ⟨positive, ?_, ?_⟩
    · rw [readScript, reading_own readScript]
    · rw [readLib, reading_own readLib]
  · intro givable field
    obtain ⟨positive, script, lib⟩ := givable
    have number : ∀ value, atolUnsigned longBits (decimal (numberFor value)) = value :=
      atolUnsigned_numberFor wide
    have texts : settled longBits (get mainConfig field) field (valuesOf (commandLine program config)) =
        get config field := by
      rw [valuesOf_commandLine named]
      cases field <;> simp [settled, lastFor, valuesOf, script, lib, Key.field, convert, number, Arguments.get]
    rw [outcome, texts, checks_kept (positive field)]

end

/-- A large number and a path with a sign in it come back, from a 32-bit `long` too. -/
theorem commandLine_large :
    effectiveConfig 32 (commandLine "stress".toList
        { mainConfig with floodBegin := true, taskAddOnce := 4000000000, scriptFile := "my-c.c".toList }) =
      some { mainConfig with floodBegin := true, taskAddOnce := 4000000000, scriptFile := "my-c.c".toList } := by
  refine (commandLine_iff (by decide) (by decide)).mpr ⟨?_, by decide, by decide⟩
  intro field checked
  rcases checked with same | same | same <;> subst same <;> decide

end EasyStressTest.Configuration
