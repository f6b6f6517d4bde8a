import Mathlib.Data.List.TakeWhile
import EasyStressTest.Options

/-!
What the argument loop of `main` makes of an argument. It looks for each key anywhere in the
text, in a fixed order, and begins with the program's own name.
-/

namespace EasyStressTest.Arguments
open Define Search Options

/-- The fields of `main_config` that take a value. -/
inductive Field where
  | taskCount
  | taskMinRunning
  | taskAddOnce
  | threadNum
  | scriptFile
  | libpath
  deriving DecidableEq, Repr

/-- The documented value options. -/
inductive Key where
  | taskcount
  | c
  | taskMinRunning
  | mc
  | taskAddOnce
  | ac
  | thread
  | tn
  | tcc
  | libpath
  deriving DecidableEq, Repr

def Key.text : Key → CString
  | .taskcount => "-taskcount=".toList
  | .c => "-c=".toList
  | .taskMinRunning => "-task_min_running=".toList
  | .mc => "-mc=".toList
  | .taskAddOnce => "-task_add_once=".toList
  | .ac => "-ac=".toList
  | .thread => "-thread=".toList
  | .tn => "-tn=".toList
  | .tcc => "-tcc=".toList
  | .libpath => "-libpath=".toList

def Key.field : Key → Field
  | .taskcount => .taskCount
  | .c => .taskCount
  | .taskMinRunning => .taskMinRunning
  | .mc => .taskMinRunning
  | .taskAddOnce => .taskAddOnce
  | .ac => .taskAddOnce
  | .thread => .threadNum
  | .tn => .threadNum
  | .tcc => .scriptFile
  | .libpath => .libpath

/-- The keys that the loop tries before the two flags, and those that it tries after them. -/
def beforeFlags : List Key :=
  [.taskcount, .c, .taskMinRunning, .mc, .taskAddOnce, .ac, .thread, .tn]

def afterFlags : List Key := [.tcc, .libpath]

def chain : List Key := beforeFlags ++ afterFlags

/-- The first of the keys that occurs in the argument, and the text after it. -/
def firstKey (keys : List Key) (arg : CString) : Option (Key × CString) :=
  keys.findSome? fun key => (valueAfter key.text arg).map fun text => (key, text)

/-- The branch that an argument takes. -/
inductive Reading where
  | value (key : Key) (text : CString)
  | flood
  | help
  | nothing
  deriving DecidableEq, Repr

def isFlood (arg : CString) : Bool := stricmp arg "-flood".toList || stricmp arg "-f".toList

def isHelp (arg : CString) : Bool :=
  stricmp arg "-help".toList || stricmp arg "/help".toList || stricmp arg "help".toList

def reading (arg : CString) : Reading :=
  match firstKey beforeFlags arg with
  | some (key, text) => .value key text
  | none =>
      if isFlood arg then .flood
      else
        match firstKey afterFlags arg with
        | some (key, text) => .value key text
        | none => if isHelp arg then .help else .nothing

def assign (longBits : Nat) (config : MainConfig) (text : CString) : Field → MainConfig
  | .taskCount => { config with taskCount := atolUnsigned longBits text }
  | .taskMinRunning => { config with taskMinRunning := atolUnsigned longBits text }
  | .taskAddOnce => { config with taskAddOnce := atolUnsigned longBits text }
  | .threadNum => { config with threadNum := atolUnsigned longBits text }
  | .scriptFile => { config with scriptFile := text }
  | .libpath => { config with libpath := text }

def perform (longBits : Nat) (config : MainConfig) : Reading → Option MainConfig
  | .value key text => some (assign longBits config text key.field)
  | .flood => some { config with floodBegin := true }
  | .help => none
  | .nothing => some config

/-- One turn of the loop does what the argument is read as. -/
theorem parseArg_eq (longBits : Nat) (config : MainConfig) (arg : CString) :
    parseArg longBits config arg = perform longBits config (reading arg) := by
  rw [parseArg, reading, firstKey, beforeFlags, firstKey, afterFlags, isFlood, isHelp]
  simp only [List.findSome?_cons, List.findSome?_nil]
  unfold Key.text
  -- the tests are independent of each other; what is left is the order of the branches
  generalize valueAfter "-taskcount=".toList arg = taskcount
  generalize valueAfter "-c=".toList arg = c
  generalize valueAfter "-task_min_running=".toList arg = taskMinRunning
  generalize valueAfter "-mc=".toList arg = mc
  generalize valueAfter "-task_add_once=".toList arg = taskAddOnce
  generalize valueAfter "-ac=".toList arg = ac
  generalize valueAfter "-thread=".toList arg = thread
  generalize valueAfter "-tn=".toList arg = tn
  generalize valueAfter "-tcc=".toList arg = tcc
  generalize valueAfter "-libpath=".toList arg = libpath
  generalize stricmp arg "-flood".toList = flood
  generalize stricmp arg "-f".toList = f
  generalize (stricmp arg "-help".toList || stricmp arg "/help".toList || stricmp arg "help".toList) = help
  cases taskcount with
  | some => rfl
  | none =>
  cases c with
  | some => rfl
  | none =>
  cases taskMinRunning with
  | some => rfl
  | none =>
  cases mc with
  | some => rfl
  | none =>
  cases taskAddOnce with
  | some => rfl
  | none =>
  cases ac with
  | some => rfl
  | none =>
  cases thread with
  | some => rfl
  | none =>
  cases tn with
  | some => rfl
  | none =>
  cases flood with
  | true => rfl
  | false =>
  cases f with
  | true => rfl
  | false =>
  cases tcc with
  | some => rfl
  | none =>
  cases libpath with
  | some => rfl
  | none => cases help <;> rfl

/-! The whole loop. -/

/-- The value of a field: a number or a text. -/
inductive Value where
  | number (value : UInt32)
  | text (value : CString)
  deriving DecidableEq, Repr

def get (config : MainConfig) : Field → Value
  | .taskCount => .number config.taskCount
  | .taskMinRunning => .number config.taskMinRunning
  | .taskAddOnce => .number config.taskAddOnce
  | .threadNum => .number config.threadNum
  | .scriptFile => .text config.scriptFile
  | .libpath => .text config.libpath

/-- What a field becomes by this text. -/
def convert (longBits : Nat) (text : CString) : Field → Value
  | .scriptFile => .text text
  | .libpath => .text text
  | _ => .number (atolUnsigned longBits text)

theorem get_assign (longBits : Nat) (config : MainConfig) (text : CString) (field other : Field) :
    get (assign longBits config text field) other =
      if field = other then convert longBits text field else get config other := by
  cases field <;> cases other <;> rfl

theorem flood_assign (longBits : Nat) (config : MainConfig) (text : CString) (field : Field) :
    (assign longBits config text field).floodBegin = config.floodBegin := by
  cases field <;> rfl

/-- The last text for a field. -/
def lastFor (field : Field) : List (Field × CString) → Option CString
  | [] => none
  | (other, text) :: rest => (lastFor field rest).or (if other = field then some text else none)

/-- The value of a field after these texts, from the one it had before. -/
def settled (longBits : Nat) (before : Value) (field : Field) (texts : List (Field × CString)) : Value :=
  match lastFor field texts with
  | some text => convert longBits text field
  | none => before

/-- The texts that the loop takes from the arguments, each for the field that it goes to. -/
def valuesOf (argv : List CString) : List (Field × CString) :=
  argv.filterMap fun arg =>
    match reading arg with
    | .value key text => some (key.field, text)
    | _ => none

theorem settled_cons (longBits : Nat) (before : Value) (field other : Field) (text : CString)
    (rest : List (Field × CString)) :
    settled longBits before field ((other, text) :: rest) =
      settled longBits (if other = field then convert longBits text other else before) field rest := by
  rw [settled, settled, lastFor]
  cases lastFor field rest with
  | some later => rfl
  | none =>
    by_cases same : other = field
    · simp [same]
    · simp [same]

/-- The loop by what the arguments are read as. -/
theorem loop_spec (longBits : Nat) (argv : List CString) (config : MainConfig) :
    ((∃ arg ∈ argv, reading arg = .help) → argv.foldlM (parseArg longBits) config = none) ∧
      ((∀ arg ∈ argv, reading arg ≠ .help) →
        ∃ result, argv.foldlM (parseArg longBits) config = some result ∧
          (result.floodBegin = true ↔
            config.floodBegin = true ∨ ∃ arg ∈ argv, reading arg = .flood) ∧
            ∀ field, get result field = settled longBits (get config field) field (valuesOf argv)) := by
  induction argv generalizing config with
  | nil => simp [valuesOf, settled, lastFor]
  | cons arg rest ih =>
    rw [List.foldlM_cons, parseArg_eq]
    cases read : reading arg with
    | value key text =>
      obtain ⟨stops, goes⟩ := ih (assign longBits config text key.field)
      simp only [List.exists_mem_cons_iff, read, reduceCtorEq, false_or, List.forall_mem_cons, ne_eq,
        not_false_eq_true, true_and]
      refine ⟨stops, ?_⟩
      intro unhelped
      obtain ⟨result, returns, flood, values⟩ := goes unhelped
      refine ⟨result, returns, by rw [flood, flood_assign], ?_⟩
      intro field
      have head : valuesOf (arg :: rest) = (key.field, text) :: valuesOf rest := by
        simp [valuesOf, read]
      rw [values, head, settled_cons, get_assign]
    | flood =>
      obtain ⟨stops, goes⟩ := ih { config with floodBegin := true }
      simp only [List.exists_mem_cons_iff, read, reduceCtorEq, false_or, List.forall_mem_cons, ne_eq,
        not_false_eq_true, true_and, true_or, or_true, iff_true]
      refine ⟨stops, ?_⟩
      intro unhelped
      obtain ⟨result, returns, flood, values⟩ := goes unhelped
      refine ⟨result, returns, flood.mpr (Or.inl rfl), ?_⟩
      intro field
      have head : valuesOf (arg :: rest) = valuesOf rest := by simp [valuesOf, read]
      rw [values, head]
      cases field <;> rfl
    | help =>
      simp [read, perform]
    | nothing =>
      obtain ⟨stops, goes⟩ := ih config
      have head : valuesOf (arg :: rest) = valuesOf rest := by simp [valuesOf, read]
      simp only [List.exists_mem_cons_iff, read, reduceCtorEq, false_or, List.forall_mem_cons, ne_eq,
        not_false_eq_true, true_and, head]
      exact ⟨stops, goes⟩

/-! Documented options. -/

/-- A documented value option. -/
structure ValueOption where
  key : Key
  value : CString
  deriving DecidableEq, Repr

def ValueOption.arg (option : ValueOption) : CString := option.key.text ++ option.value

/-- The texts that the options give, each for the field that its key denotes. -/
def denoted (options : List ValueOption) : List (Field × CString) :=
  options.map fun option => (option.key.field, option.value)

/-- The loop leaves in every field the value of the last option for it, or its default. -/
def AsDocumented (longBits : Nat) (program : CString) (options : List ValueOption) : Prop :=
  ∃ config, (program :: options.map ValueOption.arg).foldlM (parseArg longBits) mainConfig = some config ∧
    config.floodBegin = mainConfig.floodBegin ∧
      ∀ field, get config field = settled longBits (get mainConfig field) field (denoted options)

/-- Two texts count for the same value of a field; no text counts for its default. -/
def Alike (longBits : Nat) (field : Field) : Option CString → Option CString → Prop
  | some text, some other => convert longBits text field = convert longBits other field
  | some text, none => convert longBits text field = get mainConfig field
  | none, some other => get mainConfig field = convert longBits other field
  | none, none => True

/-- The program's name is not a flag, and for every field the last argument in which the loop finds
a key of that field first has a text like that of the last option for it. -/
def ReadAsMeant (longBits : Nat) (program : CString) (options : List ValueOption) : Prop :=
  reading program ≠ .flood ∧ reading program ≠ .help ∧
    ∀ field, Alike longBits field (lastFor field (valuesOf (program :: options.map ValueOption.arg)))
      (lastFor field (denoted options))

theorem alike_iff (longBits : Nat) (field : Field) (texts others : List (Field × CString)) :
    Alike longBits field (lastFor field texts) (lastFor field others) ↔
      settled longBits (get mainConfig field) field texts =
        settled longBits (get mainConfig field) field others := by
  rw [settled, settled]
  cases lastFor field texts with
  | some text =>
    cases lastFor field others with
    | some other => exact Iff.rfl
    | none => exact Iff.rfl
  | none =>
    cases lastFor field others with
    | some other => exact Iff.rfl
    | none => exact iff_of_true trivial rfl

/-- The keys that the loop tries before this one. -/
def triedBefore (key : Key) : List Key := chain.takeWhile (· ≠ key)

/-- The program's name is nothing to the loop, and no value contains a key that is tried before the
option's own. -/
def Clear (program : CString) (options : List ValueOption) : Prop :=
  reading program = .nothing ∧
    ∀ option ∈ options, ∀ other ∈ triedBefore option.key, search other.text option.value = none

instance (program : CString) (options : List ValueOption) : Decidable (Clear program options) :=
  inferInstanceAs (Decidable (_ ∧ _))

theorem text_ne_nil (key : Key) : key.text ≠ [] := by
  cases key <;> decide

theorem mem_chain (key : Key) : key ∈ chain := by
  cases key <;> decide

theorem search_own {pattern : CString} (nonempty : pattern ≠ []) (rest : CString) :
    search pattern (pattern ++ rest) = some 0 := by
  apply (search_eq_some nonempty).mpr
  exact ⟨List.prefix_append pattern rest, fun earlier before => absurd before (Nat.not_lt_zero earlier)⟩

theorem valueAfter_own (key : Key) (value : CString) : valueAfter key.text (key.text ++ value) = some value := by
  rw [valueAfter, search_own (text_ne_nil key), Option.map_some, Nat.zero_add, List.drop_left]

/-- No key is the beginning of another. -/
theorem texts_apart : ∀ key ∈ chain, ∀ other ∈ chain, other ≠ key →
    ¬other.text <+: key.text ∧ ¬key.text <+: other.text := by
  decide

/-- A key has its only dash in front. -/
theorem one_dash : ∀ key ∈ chain, ∀ k, k < key.text.length → key.text[k]? = some '-' → k = 0 := by
  decide

theorem dash_first : ∀ key ∈ chain, key.text[0]? = some '-' := by
  decide

/-- Another key stands in an option only if it stands in its value. -/
theorem search_other {key other : Key} (different : other ≠ key) {value : CString}
    (absent : search other.text value = none) : search other.text (key.text ++ value) = none := by
  apply (search_eq_none (text_ne_nil other)).mpr
  intro position occurs
  by_cases within : position < key.text.length
  · have dash : (key.text ++ value)[position]? = some '-' := by
      obtain ⟨rest, joined⟩ := occurs
      have first := dash_first other (mem_chain other)
      rw [← Nat.add_zero position, ← List.getElem?_drop, ← joined,
        List.getElem?_append_left (List.length_pos_of_ne_nil (text_ne_nil other))]
      exact first
    rw [List.getElem?_append_left within] at dash
    have start := one_dash key (mem_chain key) position within dash
    rw [start, OccursAt, List.drop_zero] at occurs
    have apart := texts_apart key (mem_chain key) other (mem_chain other) different
    rcases List.prefix_or_prefix_of_prefix occurs (List.prefix_append key.text value) with shorter | longer
    · exact apart.1 shorter
    · exact apart.2 longer
  · apply (search_eq_none (text_ne_nil other)).mp absent (position - key.text.length)
    rw [OccursAt, List.drop_append, List.drop_eq_nil_of_le (Nat.le_of_not_lt within), List.nil_append] at occurs
    exact occurs

theorem valueAfter_eq_none {key : Key} {arg : CString} (absent : search key.text arg = none) :
    valueAfter key.text arg = none := by
  rw [valueAfter, absent, Option.map_none]

/-- A key that occurs after others that do not is the first. -/
theorem firstKey_eq_some {key : Key} {arg value : CString} (found : valueAfter key.text arg = some value)
    {keys : List Key} (member : key ∈ keys)
    (absent : ∀ other ∈ keys.takeWhile (· ≠ key), valueAfter other.text arg = none) :
    firstKey keys arg = some (key, value) := by
  induction keys with
  | nil => exact absurd member List.not_mem_nil
  | cons other rest ih =>
    rw [firstKey, List.findSome?_cons]
    by_cases own : other = key
    · rw [own, found, Option.map_some]
    · have missing : valueAfter other.text arg = none := by
        apply absent
        rw [List.takeWhile_cons_of_pos (by simpa using own)]
        exact List.mem_cons_self
      rw [missing, Option.map_none]
      apply ih (List.mem_of_ne_of_mem (Ne.symm own) member)
      intro earlier before
      apply absent
      rw [List.takeWhile_cons_of_pos (by simpa using own)]
      exact List.mem_cons_of_mem other before

theorem firstKey_chain (arg : CString) :
    firstKey chain arg = (firstKey beforeFlags arg).or (firstKey afterFlags arg) :=
  List.findSome?_append

theorem stricmp_eq_false {left right : CString} {char : Char} (member : char.toLower ∈ left.map Char.toLower)
    (missing : char.toLower ∉ right.map Char.toLower) : stricmp left right = false := by
  rw [stricmp, decide_eq_false_iff_not]
  intro same
  rw [same] at member
  exact missing member

theorem equals_mem : ∀ key ∈ chain, '=' ∈ key.text := by
  decide

/-- A flag has no equals sign, which every option has. -/
theorem isFlood_option (option : ValueOption) : isFlood option.arg = false := by
  have equals : Char.toLower '=' ∈ option.arg.map Char.toLower := by
    apply List.mem_map_of_mem
    exact List.mem_append_left option.value (equals_mem option.key (mem_chain option.key))
  rw [isFlood, stricmp_eq_false equals (by decide), stricmp_eq_false equals (by decide), Bool.or_false]

theorem reading_firstKey {arg : CString} (unflagged : isFlood arg = false) {key : Key} {text : CString}
    (first : firstKey chain arg = some (key, text)) : reading arg = .value key text := by
  rw [firstKey_chain] at first
  rw [reading]
  cases before : firstKey beforeFlags arg with
  | some found =>
    rw [before, Option.some_or, Option.some_inj] at first
    rw [first]
  | none =>
    rw [before, Option.none_or] at first
    simp [unflagged, first]

/-- Some key is found in every option. -/
theorem reading_option (option : ValueOption) : ∃ key text, reading option.arg = .value key text := by
  have occurs : firstKey chain option.arg ≠ none := by
    intro missing
    have absent := List.findSome?_eq_none_iff.mp missing option.key (mem_chain option.key)
    rw [ValueOption.arg, valueAfter_own] at absent
    exact absurd absent (by simp)
  obtain ⟨found, first⟩ := Option.ne_none_iff_exists'.mp occurs
  exact ⟨found.1, found.2, reading_firstKey (isFlood_option option) first⟩

/-- An option without a key that is tried before its own is read as what it is. -/
theorem reading_clear {option : ValueOption}
    (clear : ∀ other ∈ triedBefore option.key, search other.text option.value = none) :
    reading option.arg = .value option.key option.value := by
  apply reading_firstKey (isFlood_option option)
  apply firstKey_eq_some (valueAfter_own option.key option.value) (mem_chain option.key)
  intro other before
  have different : other ≠ option.key := by
    simpa using List.mem_takeWhile_imp before
  exact valueAfter_eq_none (search_other different (clear other before))

/-- Only the program's name can be a flag. -/
theorem flag_iff {flag : Reading} (isFlag : flag = .flood ∨ flag = .help) (program : CString)
    (options : List ValueOption) :
    (∃ arg ∈ program :: options.map ValueOption.arg, reading arg = flag) ↔ reading program = flag := by
  rw [List.exists_mem_cons_iff]
  apply or_iff_left
  rintro ⟨arg, member, flagged⟩
  obtain ⟨option, _, same⟩ := List.mem_map.mp member
  obtain ⟨key, text, read⟩ := reading_option option
  rw [← same, read] at flagged
  rcases isFlag with flood | help
  · exact Reading.noConfusion (flagged.trans flood)
  · exact Reading.noConfusion (flagged.trans help)

theorem asDocumented_iff (longBits : Nat) (program : CString) (options : List ValueOption) :
    AsDocumented longBits program options ↔ ReadAsMeant longBits program options := by
  obtain ⟨stops, goes⟩ := loop_spec longBits (program :: options.map ValueOption.arg) mainConfig
  by_cases help : reading program = .help
  · have stopped := stops ((flag_iff (Or.inr rfl) program options).mpr help)
    apply iff_of_false
    · rintro ⟨config, returns, _⟩
      rw [stopped] at returns
      cases returns
    · rintro ⟨_, unhelped, _⟩
      exact unhelped help
  · obtain ⟨result, returns, flood, settles⟩ :=
      goes fun arg member same => help ((flag_iff (Or.inr rfl) program options).mp ⟨arg, member, same⟩)
    have begins : result.floodBegin = mainConfig.floodBegin ↔ reading program ≠ .flood := by
      have unbegun : mainConfig.floodBegin = false := rfl
      rw [flag_iff (Or.inl rfl), unbegun] at flood
      rw [unbegun, Bool.eq_false_iff, ne_eq, flood]
      simp
    apply Iff.intro
    · rintro ⟨config, same, kept, values⟩
      rw [returns, Option.some_inj] at same
      subst same
      refine ⟨begins.mp kept, help, ?_⟩
      intro field
      rw [alike_iff, ← settles field, values field]
    · rintro ⟨unflagged, _, values⟩
      refine ⟨result, returns, begins.mpr unflagged, ?_⟩
      intro field
      rw [settles field, (alike_iff longBits field _ _).mp (values field)]

theorem valuesOf_clear {program : CString} {options : List ValueOption} (clear : Clear program options) :
    valuesOf (program :: options.map ValueOption.arg) = denoted options := by
  rw [valuesOf, List.filterMap_cons, clear.1, List.filterMap_map, denoted, ← List.filterMap_eq_map]
  apply List.filterMap_congr
  intro option member
  rw [Function.comp_apply, reading_clear (clear.2 option member), Function.comp_apply]

theorem readAsMeant_of_clear {longBits : Nat} {program : CString} {options : List ValueOption}
    (clear : Clear program options) : ReadAsMeant longBits program options := by
  refine ⟨?_, ?_, ?_⟩
  · rw [clear.1]
    decide
  · rw [clear.1]
    decide
  · intro field
    rw [alike_iff, valuesOf_clear clear]

/-- The text that an option gives its field depends only on the options for that field. -/
theorem lastFor_filter (field : Field) (options : List ValueOption) :
    lastFor field (denoted options) =
      lastFor field (denoted (options.filter fun option => option.key.field = field)) := by
  induction options with
  | nil => rfl
  | cons option rest ih =>
    by_cases own : option.key.field = field
    · rw [List.filter_cons_of_pos (by simpa using own), denoted, List.map_cons, lastFor, denoted,
        List.map_cons, lastFor]
      rw [denoted, denoted] at ih
      rw [ih]
    · rw [List.filter_cons_of_neg (by simpa using own), denoted, List.map_cons, lastFor, if_neg own,
        Option.or_none]
      exact ih

theorem config_ext {left right : MainConfig} (flood : left.floodBegin = right.floodBegin)
    (values : ∀ field, get left field = get right field) : left = right := by
  have taskCount := values .taskCount
  have taskMinRunning := values .taskMinRunning
  have taskAddOnce := values .taskAddOnce
  have threadNum := values .threadNum
  have scriptFile := values .scriptFile
  have libpath := values .libpath
  cases left
  cases right
  simp_all [get]

/-- Options for different fields may change places, and the program's name does not matter. -/
theorem asDocumented_permuted {longBits : Nat} {program other : CString} {options permuted : List ValueOption}
    (first : AsDocumented longBits program options) (second : AsDocumented longBits other permuted)
    (sameFields : ∀ field, options.filter (fun option => option.key.field = field) =
      permuted.filter fun option => option.key.field = field) :
    (program :: options.map ValueOption.arg).foldlM (parseArg longBits) mainConfig =
      (other :: permuted.map ValueOption.arg).foldlM (parseArg longBits) mainConfig := by
  obtain ⟨config, returns, flood, values⟩ := first
  obtain ⟨config', returns', flood', values'⟩ := second
  have same : config = config' := by
    apply config_ext
    · rw [flood, flood']
    · intro field
      rw [values, values', settled, settled, lastFor_filter, sameFields field, ← lastFor_filter]
  rw [returns, returns', same]

/-- The configuration is as documented exactly when every field is read as meant, for which it is
enough that no key stands where it is not expected. Then neither the program's name nor the order
of options for different fields matters. -/
theorem parsed_iff (longBits : Nat) (program : CString) (options : List ValueOption) :
    (AsDocumented longBits program options ↔ ReadAsMeant longBits program options) ∧
      (Clear program options → AsDocumented longBits program options) ∧
        (AsDocumented longBits program options → ∀ other permuted, AsDocumented longBits other permuted →
          (∀ field, options.filter (fun option => option.key.field = field) =
            permuted.filter fun option => option.key.field = field) →
          (program :: options.map ValueOption.arg).foldlM (parseArg longBits) mainConfig =
            (other :: permuted.map ValueOption.arg).foldlM (parseArg longBits) mainConfig) := by
  refine ⟨asDocumented_iff longBits program options, ?_, ?_⟩
  · intro clear
    exact (asDocumented_iff longBits program options).mpr (readAsMeant_of_clear clear)
  · intro first other permuted second sameFields
    exact asDocumented_permuted first second sameFields

/-- A script with its library, and a number of tasks given twice. -/
def scriptOptions : List ValueOption :=
  [⟨.tcc, "run.c".toList⟩, ⟨.c, "5".toList⟩, ⟨.libpath, "lib".toList⟩, ⟨.taskcount, "7".toList⟩]

/-- The same, with only the options for one field in their order. -/
def permutedOptions : List ValueOption :=
  [⟨.c, "5".toList⟩, ⟨.taskcount, "7".toList⟩, ⟨.libpath, "lib".toList⟩, ⟨.tcc, "run.c".toList⟩]

theorem parsed_iff_script :
    AsDocumented 32 "stress".toList scriptOptions ∧ AsDocumented 32 "a.out".toList permutedOptions ∧
      ("stress".toList :: scriptOptions.map ValueOption.arg).foldlM (parseArg 32) mainConfig =
        ("a.out".toList :: permutedOptions.map ValueOption.arg).foldlM (parseArg 32) mainConfig := by
  obtain ⟨_, documents, permutes⟩ := parsed_iff 32 "stress".toList scriptOptions
  have first := documents (by decide)
  have second := (parsed_iff 32 "a.out".toList permutedOptions).2.1 (by decide)
  refine ⟨first, second, permutes first _ _ second fun field => ?_⟩
  cases field with
  | taskCount => decide
  | taskMinRunning => decide
  | taskAddOnce => decide
  | threadNum => decide
  | scriptFile => decide
  | libpath => decide

/-- The path of a script is read as a number of tasks, and there is no script. -/
theorem path_sets_task_count :
    ¬AsDocumented 32 "stress".toList [⟨.tcc, "scripts/test-c=2/run.c".toList⟩] := by
  intro documented
  obtain ⟨_, _, values⟩ := (asDocumented_iff 32 _ _).mp documented
  exact absurd ((alike_iff 32 .scriptFile _ _).mp (values .scriptFile)) (by decide)

end EasyStressTest.Arguments
