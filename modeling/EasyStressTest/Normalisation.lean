import EasyStressTest.Arguments
import EasyStressTest.Callbacks

/-!
What becomes of a number that is given for one of the three fields that `main` checks after its
loop. The fields are unsigned, so the checks meet a negative number only after it has wrapped.
-/

namespace EasyStressTest.Normalisation
open Define Search Options Arguments Libuv Tasks Callbacks

inductive Sign where
  | absent
  | plus
  | minus
  deriving DecidableEq, Repr

def Sign.text : Sign → CString
  | .absent => []
  | .plus => ['+']
  | .minus => ['-']

def Sign.apply : Sign → Nat → Int
  | .minus, value => -value
  | _, value => value

/-- The text is this number in decimal digits, perhaps after spaces and a sign. -/
def Numeral (number : Int) (text : CString) : Prop :=
  ∃ (spaces : CString) (sign : Sign) (digits : CString), text = spaces ++ (sign.text ++ digits) ∧
    (∀ char ∈ spaces, isSpace char = true) ∧ digits ≠ [] ∧ (∀ char ∈ digits, char.isDigit = true) ∧
      number = sign.apply (Nat.ofDigitChars 10 digits 0)

/-- The shortest text of a number. -/
def decimal (number : Int) : CString :=
  if number < 0 then '-' :: Nat.toDigits 10 number.natAbs else Nat.toDigits 10 number.natAbs

/-- Every number can be given. -/
theorem numeral_decimal (number : Int) : Numeral number (decimal number) := by
  have digits : ∀ char ∈ Nat.toDigits 10 number.natAbs, char.isDigit = true := by
    intro char member
    exact Nat.isDigit_of_mem_toDigits (by decide) (by decide) member
  by_cases negative : number < 0
  · refine ⟨[], .minus, Nat.toDigits 10 number.natAbs, ?_, by simp, Nat.toDigits_ne_nil, digits, ?_⟩
    · rw [decimal, if_pos negative]
      rfl
    · rw [Nat.ofDigitChars_ten_toDigits, Sign.apply]
      omega
  · refine ⟨[], .absent, Nat.toDigits 10 number.natAbs, ?_, by simp, Nat.toDigits_ne_nil, digits, ?_⟩
    · rw [decimal, if_neg negative]
      rfl
    · rw [Nat.ofDigitChars_ten_toDigits, Sign.apply]
      · omega
      · simp

theorem digit_plain {char : Char} (digit : char.isDigit = true) :
    isSpace char = false ∧ char ≠ '-' ∧ char ≠ '+' ∧ char ≠ '=' := by
  have bounds : 48 ≤ char.toNat ∧ char.toNat ≤ 57 := by
    simpa [Char.isDigit, UInt32.le_iff_toNat_le] using digit
  have apart : ∀ other : Char, other.toNat < 48 ∨ 57 < other.toNat → char ≠ other := by
    intro other outside same
    rw [same] at bounds
    omega
  refine ⟨?_, apart '-' (by decide), apart '+' (by decide), apart '=' (by decide)⟩
  have blank : char ≠ ' ' := apart ' ' (by decide)
  simp only [isSpace, blank, decide_false, Bool.false_or, Bool.and_eq_false_iff, decide_eq_false_iff_not]
  omega

theorem decimalValue_digits {digits : CString} (all : ∀ char ∈ digits, char.isDigit = true) :
    decimalValue digits = Nat.ofDigitChars 10 digits 0 := by
  rw [decimalValue, List.takeWhile_eq_self_iff.mpr all, Nat.ofDigitChars_eq_foldl]
  rfl

theorem dropWhile_spaces {spaces rest : CString} (all : ∀ char ∈ spaces, isSpace char = true) :
    (spaces ++ rest).dropWhile isSpace = rest.dropWhile isSpace :=
  List.dropWhile_append_of_pos all

/-- `atol` takes the whole of a numeral. -/
theorem atol_numeral {number : Int} {text : CString} (written : Numeral number text) (longBits : Nat) :
    atol longBits text = clampLong longBits number := by
  obtain ⟨spaces, sign, digits, joined, blank, nonempty, all, value⟩ := written
  obtain ⟨first, rest, same⟩ := List.exists_cons_of_ne_nil nonempty
  have plain := digit_plain (all first (by rw [same]; exact List.mem_cons_self))
  rw [atol, joined, dropWhile_spaces blank, value, ← decimalValue_digits all]
  cases sign with
  | absent =>
    rw [Sign.text, List.nil_append, same, List.dropWhile_cons_of_neg (by simp [plain.1])]
    split
    · next dash =>
      exact absurd (List.cons.inj dash).1 plain.2.1
    · next plus =>
      exact absurd (List.cons.inj plus).1 plain.2.2.1
    · rfl
  | plus =>
    rfl
  | minus =>
    rfl

theorem clampLong_of_range {longBits : Nat} {number : Int} (above : -2 ^ (longBits - 1) ≤ number)
    (below : number < 2 ^ (longBits - 1)) : clampLong longBits number = number := by
  rw [clampLong, min_eq_left (by omega), max_eq_right above]

/-- No key stands in a numeral. -/
theorem search_numeral {number : Int} {text : CString} (written : Numeral number text) (key : Key) :
    search key.text text = none := by
  apply (search_eq_none (text_ne_nil key)).mpr
  intro position occurs
  obtain ⟨spaces, sign, digits, joined, blank, _, all, _⟩ := written
  have equals : '=' ∈ text := by
    apply List.mem_of_mem_drop
    exact List.IsPrefix.mem (equals_mem key (mem_chain key)) occurs
  rw [joined, List.mem_append, List.mem_append] at equals
  rcases equals with space | signed | digit
  · exact absurd (blank '=' space) (by decide)
  · revert signed
    cases sign <;> decide
  · exact absurd (all '=' digit) (by decide)

theorem reading_numeral {number : Int} {text : CString} (written : Numeral number text) (key : Key) :
    reading (key.text ++ text) = .value key text :=
  @reading_clear ⟨key, text⟩ fun other _ => search_numeral written other

/-! The last argument for a field. -/

theorem lastFor_append (field : Field) (earlier later : List (Field × CString)) :
    lastFor field (earlier ++ later) = (lastFor field later).or (lastFor field earlier) := by
  induction earlier with
  | nil => rw [List.nil_append, lastFor, Option.or_none]
  | cons pair rest ih => rw [List.cons_append, lastFor, lastFor, ih, Option.or_assoc]

theorem lastFor_eq_none {field : Field} {texts : List (Field × CString)}
    (others : ∀ pair ∈ texts, pair.1 ≠ field) : lastFor field texts = none := by
  induction texts with
  | nil => rfl
  | cons pair rest ih =>
    rw [lastFor, ih (fun other member => others other (List.mem_cons_of_mem pair member)),
      if_neg (others pair List.mem_cons_self), Option.or_none]

/-- No argument of these is read for the field. -/
def Silent (field : Field) (arguments : List CString) : Prop :=
  ∀ argument ∈ arguments, ∀ key text, reading argument = .value key text → key.field ≠ field

theorem lastFor_silent {field : Field} {arguments : List CString} (silent : Silent field arguments) :
    lastFor field (valuesOf arguments) = none := by
  apply lastFor_eq_none
  intro pair member
  obtain ⟨argument, present, read⟩ := List.mem_filterMap.mp member
  split at read
  · next key text found =>
    rw [← Option.some.inj read]
    exact silent argument present key text found
  · cases read

/-- The field takes the numeral that it is given last. -/
theorem parsed_field {longBits : Nat} {earlier later : List CString} {key : Key} {text : CString}
    {number : Int} {parsed : MainConfig} (written : Numeral number text) (silent : Silent key.field later)
    (returns : (earlier ++ (key.text ++ text) :: later).foldlM (parseArg longBits) mainConfig = some parsed) :
    get parsed key.field = convert longBits text key.field := by
  obtain ⟨stops, goes⟩ := loop_spec longBits (earlier ++ (key.text ++ text) :: later) mainConfig
  have unhelped : ∀ arg ∈ earlier ++ (key.text ++ text) :: later, reading arg ≠ .help := by
    intro arg member help
    rw [stops ⟨arg, member, help⟩] at returns
    cases returns
  obtain ⟨result, same, _, values⟩ := goes unhelped
  rw [returns, Option.some_inj] at same
  have own : valuesOf ((key.text ++ text) :: later) = (key.field, text) :: valuesOf later := by
    simp [valuesOf, reading_numeral written key]
  have split : valuesOf (earlier ++ (key.text ++ text) :: later) =
      valuesOf earlier ++ ((key.field, text) :: valuesOf later) := by
    rw [← own]
    exact List.filterMap_append
  rw [same, values, settled, split, lastFor_append, lastFor, lastFor_silent silent]
  simp

/-! The three checks. -/

/-- What each of the checked fields falls back to. -/
def fallback : Field → UInt32
  | .threadNum => 3
  | _ => 1

/-- A field that the checks look at. -/
def Checked (field : Field) : Prop :=
  field = .taskAddOnce ∨ field = .taskMinRunning ∨ field = .threadNum

theorem get_normalise {config : MainConfig} {field : Field} (checked : Checked field) {value : UInt32}
    (before : get config field = .number value) :
    get (normalise config) field = .number (if value ≤ 0 then fallback field else value) := by
  rcases checked with rfl | rfl | rfl
  · cases before
    rfl
  · cases before
    rfl
  · cases before
    rfl

theorem convert_checked {longBits : Nat} {text : CString} {field : Field} (checked : Checked field) :
    convert longBits text field = .number (atolUnsigned longBits text) := by
  rcases checked with rfl | rfl | rfl
  · rfl
  · rfl
  · rfl

/-- The field after the checks, as a function of the number. -/
def effective (field : Field) (number : Int) : UInt32 :=
  if UInt32.ofInt number ≤ 0 then fallback field else UInt32.ofInt number

theorem effective_field {longBits : Nat} {earlier later : List CString} {key : Key} {text : CString}
    {number : Int} {config : MainConfig} (checked : Checked key.field) (written : Numeral number text)
    (above : -2 ^ (longBits - 1) ≤ number) (below : number < 2 ^ (longBits - 1))
    (silent : Silent key.field later)
    (returns : effectiveConfig longBits (earlier ++ (key.text ++ text) :: later) = some config) :
    get config key.field = .number (effective key.field number) := by
  obtain ⟨parsed, loop, same⟩ := Option.map_eq_some_iff.mp returns
  have value := parsed_field written silent loop
  rw [convert_checked checked, atolUnsigned, atol_numeral written, clampLong_of_range above below] at value
  rw [← same, get_normalise checked value, effective]

theorem toNat_ofInt (number : Int) : ((UInt32.ofInt number).toNat : Int) = number % 2 ^ 32 := by
  rw [UInt32.ofInt, UInt32.toNat_ofNat', Nat.mod_eq_of_lt (by omega)]
  omega

/-- How many turns the loop of `timer_cb` makes. -/
def turns (config : MainConfig) (info : MainInfo) : Nat :=
  if info.tasks.count < config.taskMinRunning.toNat then config.taskAddOnce.toNat else 0

theorem timerCb_turns (config : MainConfig) (callbacks : TcpTaskCallback) (info : MainInfo)
    (hosts : Nat → Option UInt32) :
    timerCb config callbacks info hosts =
      (List.range (turns config info)).foldlM (fun info i => do
        let (info, r) ← tcpTaskPost callbacks info (hosts i)
        some (info.assert .timerPosted (r ≥ 0))) info := by
  rw [timerCb, turns]
  split
  · rfl
  · rfl

/-- The field is the number where an unsigned field can be, and the fallback for a number that is
not positive. Then the loop of `timer_cb` makes at most one turn a tick. -/
def Normalised (field : Field) (number : Int) (config : MainConfig) : Prop :=
  ∃ value, get config field = .number value ∧
    (1 ≤ number → number < 2 ^ 32 → (value.toNat : Int) = number) ∧
      (number ≤ 0 → value = fallback field) ∧
        (field = .taskAddOnce → number ≤ 0 → ∀ info, turns config info ≤ 1)

theorem effective_positive {field : Field} {number : Int} (positive : 1 ≤ number) (fits : number < 2 ^ 32) :
    ((effective field number).toNat : Int) = number := by
  have wrapped := toNat_ofInt number
  rw [Int.emod_eq_of_lt (by omega) fits] at wrapped
  rw [effective, if_neg, wrapped]
  rw [UInt32.le_iff_toNat_le, UInt32.toNat_zero]
  omega

/-- The wrapped number is what the field falls back to. -/
def FallsBack (field : Field) (number : Int) : Prop :=
  number % 2 ^ 32 = 0 ∨ number % 2 ^ 32 = (fallback field).toNat

theorem effective_fallback (field : Field) (number : Int) :
    effective field number = fallback field ↔ FallsBack field number := by
  have wrapped := toNat_ofInt number
  rw [effective, FallsBack]
  by_cases low : UInt32.ofInt number ≤ 0
  · rw [if_pos low]
    rw [UInt32.le_iff_toNat_le, UInt32.toNat_zero] at low
    exact iff_of_true rfl (Or.inl (by omega))
  · rw [if_neg low]
    rw [UInt32.le_iff_toNat_le, UInt32.toNat_zero] at low
    rw [← UInt32.toNat_inj]
    omega

/-- A number given for a checked field is normalised as documented exactly when it is positive or
wraps to zero or to the fallback. -/
theorem normalised_iff {longBits : Nat} {earlier later : List CString} {key : Key} {text : CString}
    {number : Int} {config : MainConfig} (checked : Checked key.field) (written : Numeral number text)
    (above : -2 ^ (longBits - 1) ≤ number) (below : number < 2 ^ (longBits - 1))
    (silent : Silent key.field later)
    (returns : effectiveConfig longBits (earlier ++ (key.text ++ text) :: later) = some config) :
    Normalised key.field number config ↔ 1 ≤ number ∨ FallsBack key.field number := by
  have value := effective_field checked written above below silent returns
  apply Iff.intro
  · rintro ⟨found, same, _, falls, _⟩
    rw [value, Value.number.injEq] at same
    by_cases positive : 1 ≤ number
    · exact Or.inl positive
    · right
      rw [← effective_fallback, same]
      exact falls (by omega)
  · intro accepted
    have falls : number ≤ 0 → effective key.field number = fallback key.field := by
      intro low
      rcases accepted with positive | wraps
      · omega
      · exact (effective_fallback key.field number).mpr wraps
    refine ⟨effective key.field number, value, effective_positive, falls, ?_⟩
    intro adds low info
    rw [falls low, adds] at value
    have once : config.taskAddOnce = 1 := Value.number.inj value
    rw [turns, once]
    split
    · decide
    · decide

theorem five_at_a_time : Normalised .taskAddOnce 5 { mainConfig with taskAddOnce := 5 } :=
  (@normalised_iff 32 ["stress".toList] [] .ac ['5'] 5 _ (Or.inl rfl) ⟨[], .absent, ['5'], rfl, by simp, by simp, by simp, rfl⟩
    (by decide) (by decide) (fun _ absent => absurd absent List.not_mem_nil) rfl).mpr
      (Or.inl (by decide))

/-- The number -1 becomes the largest one, and so many turns the loop makes. -/
theorem minus_one_wraps :
    ∃ config, effectiveConfig 32 ["stress".toList, "-ac=-1".toList] = some config ∧
      ¬Normalised .taskAddOnce (-1) config ∧ turns config MainInfo.initial = 4294967295 := by
  refine ⟨{ mainConfig with taskAddOnce := 4294967295 }, rfl, ?_, rfl⟩
  rintro ⟨value, same, _, falls, _⟩
  rw [falls (by decide)] at same
  exact absurd same (by decide)

end EasyStressTest.Normalisation
