import KernelAbi.Version.Release

/-! The grammar of release texts, and a second reader. The grammar says which texts state a version,
without a word on how they are read. The second reader goes over a text once, keeps its verdict to the end
and does arithmetic that may overflow: it never does, and it agrees with the first. -/
namespace KernelAbi.Version

/-- `run` is a number at the front of a text that goes on with `rest`: all digits that there are, at least
one. -/
structure Run (run rest : List Char) : Prop where
  nonempty : run ≠ []
  digits : ∀ c ∈ run, c.isDigit
  maximal : ∀ c ∈ rest.head?, ¬ c.isDigit

/-- The number that digits stand for. Zeros may lead. -/
def decimal (run : List Char) : Nat := Nat.ofDigitChars 10 run 0

/-- A text that states a version. A point behind the second number belongs to a third. -/
inductive States : List Char → Version → Prop where
  | two {major minor rest : List Char} (first : Run major ('.' :: (minor ++ rest)))
      (second : Run minor rest) (noPoint : rest.head? ≠ some '.')
      (majorFits : decimal major ≤ 255) (minorFits : decimal minor ≤ 255) :
      States (major ++ '.' :: (minor ++ rest)) (make (.ofNat (decimal major)) (.ofNat (decimal minor)) 0)
  | three {major minor patch rest : List Char}
      (first : Run major ('.' :: (minor ++ '.' :: (patch ++ rest))))
      (second : Run minor ('.' :: (patch ++ rest))) (third : Run patch rest)
      (majorFits : decimal major ≤ 255) (minorFits : decimal minor ≤ 255)
      (patchFits : decimal patch ≤ 65535) :
      States (major ++ '.' :: (minor ++ '.' :: (patch ++ rest)))
        (make (.ofNat (decimal major)) (.ofNat (decimal minor)) (.ofNat (decimal patch)))

section Digits

variable {c : Char} {value : UInt32} {run rest : List Char}

theorem digit_toNat (digit : c.isDigit) :
    (c.val - '0'.val).toNat = c.toNat - '0'.toNat ∧ c.toNat - '0'.toNat ≤ 9 := by
  have range : 48 ≤ c.val.toNat ∧ c.val.toNat ≤ 57 := by
    simpa [Char.isDigit, UInt32.le_iff_toNat_le] using digit
  have zero : '0'.val.toNat = 48 := rfl
  have below : '0'.val ≤ c.val := UInt32.le_iff_toNat_le.mpr (by omega)
  have code : c.toNat = c.val.toNat := rfl
  have zeroCode : '0'.toNat = 48 := rfl
  rw [UInt32.toNat_sub_of_le _ _ below]
  omega

/-- From a number in bounds, one more digit does not overflow. -/
theorem next_toNat (small : value.toNat ≤ 65535) (digit : c.isDigit) :
    (value * 10 + (c.val - '0'.val)).toNat = 10 * value.toNat + (c.toNat - '0'.toNat) := by
  obtain ⟨same, atMost⟩ := digit_toNat digit
  have ten : (10 : UInt32).toNat = 10 := rfl
  rw [UInt32.toNat_add, UInt32.toNat_mul, same, ten]
  omega

theorem largestNumber_lt : value > largestNumber ↔ 65535 < value.toNat := UInt32.lt_iff_toNat_lt

/-- The bound on numbers leaves room in a word. -/
theorem word_toNat {n : Nat} (small : n ≤ 65535) : (UInt32.ofNat n).toNat = n :=
  UInt32.toNat_ofNat_of_lt' (Nat.lt_of_le_of_lt small (by decide))

theorem le_ofDigitChars (run : List Char) (value : Nat) : value ≤ Nat.ofDigitChars 10 run value := by
  induction run generalizing value with
  | nil => simp
  | cons c run ih =>
    rw [Nat.ofDigitChars_cons]
    exact Nat.le_trans (by omega) (ih _)

theorem exists_run (text : List Char) : ∃ run rest, text = run ++ rest ∧
    (∀ c ∈ run, c.isDigit) ∧ (∀ c ∈ rest.head?, ¬ c.isDigit) := by
  induction text with
  | nil => exact ⟨[], [], rfl, by simp, by simp⟩
  | cons c text ih =>
    by_cases digit : c.isDigit
    · obtain ⟨run, rest, rfl, digits, maximal⟩ := ih
      refine ⟨c :: run, rest, rfl, ?_, maximal⟩
      intro d member
      rcases List.mem_cons.mp member with rfl | member
      · exact digit
      · exact digits d member
    · exact ⟨[], c :: text, rfl, by simp, by simpa using digit⟩

theorem digits?_run (digits : ∀ c ∈ run, c.isDigit) (maximal : ∀ c ∈ rest.head?, ¬ c.isDigit)
    (small : value.toNat ≤ 65535) :
    digits? value (run ++ rest) =
      if Nat.ofDigitChars 10 run value.toNat ≤ 65535 then
        some (.ofNat (Nat.ofDigitChars 10 run value.toNat), rest)
      else none := by
  induction run generalizing value with
  | nil =>
    rw [List.nil_append, Nat.ofDigitChars_nil, if_pos small, UInt32.ofNat_toNat]
    cases rest with
    | nil => rfl
    | cons c rest => simp [digits?, maximal c rfl]
  | cons c run ih =>
    have digit : c.isDigit := digits c List.mem_cons_self
    rw [List.cons_append, Nat.ofDigitChars_cons, ← next_toNat small digit]
    simp only [digits?, digit, if_true, largestNumber_lt]
    split
    · have grown := le_ofDigitChars run (value * 10 + (c.val - '0'.val)).toNat
      rw [if_neg (by omega)]
    · exact ih (fun d member => digits d (List.mem_cons_of_mem c member)) (by omega)

theorem number?_run (digits : ∀ c ∈ run, c.isDigit) (maximal : ∀ c ∈ rest.head?, ¬ c.isDigit) :
    number? (run ++ rest) =
      if run ≠ [] ∧ decimal run ≤ 65535 then some (.ofNat (decimal run), rest) else none := by
  cases run with
  | nil =>
    rw [if_neg (by simp)]
    cases rest with
    | nil => rfl
    | cons c rest => simp [number?, maximal c rfl]
  | cons c run =>
    have digit : c.isDigit := digits c List.mem_cons_self
    have zero : (0 : UInt32).toNat ≤ 65535 := Nat.zero_le _
    have read := digits?_run digits maximal zero
    simp only [List.cons_append] at read
    simp only [List.cons_append, number?, digit, if_true, read, decimal, ne_eq, reduceCtorEq,
      not_false_eq_true, true_and, UInt32.toNat_zero]

end Digits

section Grammar

variable {text rest : List Char} {n : UInt32}

theorem number?_eq_some_iff : number? text = some (n, rest) ↔
    ∃ run, text = run ++ rest ∧ Run run rest ∧ decimal run ≤ 65535 ∧ n = .ofNat (decimal run) := by
  constructor
  · intro read
    obtain ⟨run, behind, rfl, digits, maximal⟩ := exists_run text
    rw [number?_run digits maximal] at read
    split at read
    next fits =>
      obtain ⟨rfl, rfl⟩ := Prod.mk.inj (Option.some.inj read)
      exact ⟨run, rfl, ⟨fits.1, digits, maximal⟩, fits.2, rfl⟩
    next => contradiction
  · rintro ⟨run, rfl, number, fits, rfl⟩
    rw [number?_run number.digits number.maximal, if_pos ⟨number.nonempty, fits⟩]

theorem pointNumber?_eq_some_iff : pointNumber? text = some (n, rest) ↔
    ∃ run, text = '.' :: (run ++ rest) ∧ Run run rest ∧ decimal run ≤ 65535 ∧ n = .ofNat (decimal run) := by
  constructor
  · intro read
    unfold pointNumber? at read
    split at read
    next behind =>
      obtain ⟨run, rfl, number⟩ := number?_eq_some_iff.mp read
      exact ⟨run, rfl, number⟩
    next => contradiction
  · rintro ⟨run, rfl, number⟩
    exact number?_eq_some_iff.mpr ⟨run, rfl, number⟩

theorem pointNumber?_none (noPoint : rest.head? ≠ some '.') : pointNumber? rest = none := by
  unfold pointNumber?
  split
  · exact absurd rfl noPoint
  · rfl

/-- What is made of a text once two numbers are read. -/
def ofNumbers? (major minor : UInt32) (rest : List Char) : Option Version :=
  if major > 255 ∨ minor > 255 then none
  else if rest.head? = some '.' then
    (pointNumber? rest).map fun patch => make major.toUInt8 minor.toUInt8 patch.1
  else some (make major.toUInt8 minor.toUInt8 0)

theorem ofReleaseChars?_eq (text : List Char) :
    ofReleaseChars? text =
      (number? text).bind fun major => (pointNumber? major.2).bind fun minor =>
        ofNumbers? major.1 minor.1 minor.2 := by
  simp only [ofReleaseChars?, Option.bind_eq_bind]
  congr
  funext ⟨major, behind⟩
  congr
  funext ⟨minor, rest⟩
  simp only [ofNumbers?]
  split
  · rfl
  · split
    · cases pointNumber? _ <;> rfl
    next noPoint =>
      have head : rest.head? ≠ some '.' := by
        rw [ne_eq, List.head?_eq_some_iff]
        exact fun ⟨behind, point⟩ => noPoint behind point
      rw [if_neg head]
      rfl

theorem ofNumbers?_eq_some_iff {major minor : UInt32} {v : Version} :
    ofNumbers? major minor rest = some v ↔ major.toNat ≤ 255 ∧ minor.toNat ≤ 255 ∧
      ((rest.head? ≠ some '.' ∧ v = make major.toUInt8 minor.toUInt8 0) ∨
        ∃ patch behind, pointNumber? rest = some (patch, behind) ∧
          v = make major.toUInt8 minor.toUInt8 patch) := by
  have above (m : UInt32) : m > 255 ↔ ¬ m.toNat ≤ 255 := by
    rw [gt_iff_lt, UInt32.lt_iff_toNat_lt, Nat.not_le]
    rfl
  have fits : ¬ (major > 255 ∨ minor > 255) ↔ major.toNat ≤ 255 ∧ minor.toNat ≤ 255 := by
    rw [above, above, not_or, Decidable.not_not, Decidable.not_not]
  by_cases large : major > 255 ∨ minor > 255
  · rw [ofNumbers?, if_pos large]
    constructor
    · intro read
      cases read
    · rintro ⟨majorFits, minorFits, -⟩
      exact absurd large (fits.mpr ⟨majorFits, minorFits⟩)
  · obtain ⟨majorFits, minorFits⟩ := fits.mp large
    rw [ofNumbers?, if_neg large]
    by_cases point : rest.head? = some '.'
    · rw [if_pos point, Option.map_eq_some_iff]
      constructor
      · rintro ⟨⟨patch, behind⟩, read, rfl⟩
        exact ⟨majorFits, minorFits, .inr ⟨patch, behind, read, rfl⟩⟩
      · rintro ⟨-, -, ⟨noPoint, -⟩ | ⟨patch, behind, read, rfl⟩⟩
        · exact absurd point noPoint
        · exact ⟨(patch, behind), read, rfl⟩
    · rw [if_neg point]
      constructor
      · intro read
        exact ⟨majorFits, minorFits, .inl ⟨point, (Option.some.inj read).symm⟩⟩
      · rintro ⟨-, -, ⟨-, rfl⟩ | ⟨patch, behind, read, -⟩⟩
        · rfl
        · rw [pointNumber?_none point] at read
          cases read

/-- Two numbers with a point between them are read, whatever follows. -/
theorem ofReleaseChars?_numbers {major minor : List Char} (first : Run major ('.' :: (minor ++ rest)))
    (second : Run minor rest) (majorSmall : decimal major ≤ 65535) (minorSmall : decimal minor ≤ 65535) :
    ofReleaseChars? (major ++ '.' :: (minor ++ rest)) =
      ofNumbers? (.ofNat (decimal major)) (.ofNat (decimal minor)) rest := by
  have readMajor := number?_eq_some_iff.mpr ⟨major, rfl, first, majorSmall, rfl⟩
  have readMinor := pointNumber?_eq_some_iff.mpr ⟨minor, rfl, second, minorSmall, rfl⟩
  rw [ofReleaseChars?_eq, readMajor, Option.bind_some, readMinor, Option.bind_some]

theorem states_of_read {v : Version} (read : ofReleaseChars? text = some v) : States text v := by
  rw [ofReleaseChars?_eq] at read
  obtain ⟨⟨_, _⟩, readMajor, read⟩ := Option.bind_eq_some_iff.mp read
  obtain ⟨⟨_, rest⟩, readMinor, read⟩ := Option.bind_eq_some_iff.mp read
  obtain ⟨major, rfl, first, majorSmall, rfl⟩ := number?_eq_some_iff.mp readMajor
  obtain ⟨minor, rfl, second, minorSmall, rfl⟩ := pointNumber?_eq_some_iff.mp readMinor
  obtain ⟨majorFits, minorFits, shape⟩ := ofNumbers?_eq_some_iff.mp read
  rw [word_toNat majorSmall] at majorFits
  rw [word_toNat minorSmall] at minorFits
  simp only [UInt32.toUInt8_ofNat'] at shape
  rcases shape with ⟨noPoint, rfl⟩ | ⟨_, behind, readPatch, rfl⟩
  · exact .two first second noPoint majorFits minorFits
  · obtain ⟨patch, rfl, third, patchFits, rfl⟩ := pointNumber?_eq_some_iff.mp readPatch
    exact .three first second third majorFits minorFits patchFits

theorem read_of_states {v : Version} (states : States text v) : ofReleaseChars? text = some v := by
  have word {run : List Char} (fits : decimal run ≤ 255) : (UInt32.ofNat (decimal run)).toNat ≤ 255 := by
    rwa [word_toNat (by omega)]
  cases states with
  | two first second noPoint majorFits minorFits =>
    rw [ofReleaseChars?_numbers first second (by omega) (by omega)]
    refine ofNumbers?_eq_some_iff.mpr ⟨word majorFits, word minorFits, .inl ⟨noPoint, ?_⟩⟩
    simp only [UInt32.toUInt8_ofNat']
  | three first second third majorFits minorFits patchFits =>
    rw [ofReleaseChars?_numbers first second (by omega) (by omega)]
    have readPatch := pointNumber?_eq_some_iff.mpr ⟨_, rfl, third, patchFits, rfl⟩
    refine ofNumbers?_eq_some_iff.mpr ⟨word majorFits, word minorFits, .inr ⟨_, _, readPatch, ?_⟩⟩
    simp only [UInt32.toUInt8_ofNat']

/-- Reading accepts exactly the texts of the grammar. -/
theorem ofReleaseChars?_eq_some_iff {v : Version} : ofReleaseChars? text = some v ↔ States text v :=
  ⟨states_of_read, read_of_states⟩

end Grammar

/-- A result is too large for its word. -/
inductive Overflow where
  | overflow
deriving DecidableEq, Repr

/-- One pass over a release text: the numbers that a point has ended, the number being read, and how many
digits it has so far. -/
structure Pass where
  ended : List UInt32 := []
  current : UInt32 := 0
  digits : Nat := 0

namespace Pass

/-- Digits are counted in a signed word. -/
def countLimit : Nat := 0x80000000

def within (limit n : Nat) : Except Overflow Nat := if n < limit then .ok n else .error .overflow

def append (p : Pass) (c : Char) : Except Overflow Pass := do
  let tenfold ← within UInt32.size (p.current.toNat * 10)
  let current ← within UInt32.size (tenfold + (c.toNat - '0'.toNat))
  let digits ← within countLimit (p.digits + 1)
  return { p with current := .ofNat current, digits }

/-- Packs a version into its code and reads it back. -/
def pack (major minor : UInt8) (patch : UInt32) : Except Overflow Version := do
  let capped := if patch > 255 then 255 else patch
  let upper ← within UInt32.size ((major.toUInt32 <<< 16).toNat + (minor.toUInt32 <<< 8).toNat)
  let code ← within UInt32.size (upper + capped.toNat)
  return ofCode (.ofNat code)

/-- What the numbers of a text amount to. A patch number that is not there is zero. -/
def verdict : List UInt32 → Except Overflow (Option Version)
  | [major, minor] =>
    if major > 255 ∨ minor > 255 then .ok none else (pack major.toUInt8 minor.toUInt8 0).map some
  | [major, minor, patch] =>
    if major > 255 ∨ minor > 255 then .ok none else (pack major.toUInt8 minor.toUInt8 patch).map some
  | _ => .ok none

def finish (p : Pass) : Except Overflow (Option Version) :=
  if p.digits = 0 then .ok none else verdict (p.ended ++ [p.current])

def scan (p : Pass) : List Char → Except Overflow (Option Version)
  | [] => p.finish
  | c :: rest =>
    if c.isDigit then do
      let p ← p.append c
      if p.current > largestNumber then .ok none else p.scan rest
    else if c = '.' ∧ p.ended.length < 2 then
      if p.digits = 0 then .ok none else scan ⟨p.ended ++ [p.current], 0, 0⟩ rest
    else p.finish

variable {p : Pass} {run rest text : List Char} {ended : List UInt32} {n : UInt32}

theorem within_ok {limit n : Nat} (fits : n < limit) : within limit n = .ok n := if_pos fits

theorem append_ok {c : Char} (digit : c.isDigit) (small : p.current.toNat ≤ 65535)
    (room : p.digits + 1 < countLimit) :
    p.append c = .ok ⟨p.ended, p.current * 10 + (c.val - '0'.val), p.digits + 1⟩ := by
  have size : UInt32.size = 4294967296 := rfl
  have atMost := (digit_toNat digit).2
  have sum : p.current.toNat * 10 + (c.toNat - '0'.toNat) =
      (p.current * 10 + (c.val - '0'.val)).toNat := by
    rw [next_toNat small digit]
    omega
  have tenfold : within UInt32.size (p.current.toNat * 10) = .ok (p.current.toNat * 10) :=
    within_ok (by omega)
  have current : within UInt32.size (p.current.toNat * 10 + (c.toNat - '0'.toNat)) =
      .ok (p.current * 10 + (c.val - '0'.val)).toNat := by
    rw [within_ok (by omega), sum]
  have digits : within countLimit (p.digits + 1) = .ok (p.digits + 1) := within_ok room
  simp only [append, tenfold, current, digits, bind, Except.bind, pure, Except.pure, UInt32.ofNat_toNat]

/-- A patch number takes its byte and no more. -/
theorem capped_toNat (major minor : UInt8) (patch : UInt32) :
    (if patch > 255 then 255 else patch).toNat = (make major minor patch).patch.toNat := by
  rw [make]
  by_cases large : patch > 255
  · simp only [large, if_true]
    rfl
  · have small : patch.toNat ≤ 255 := UInt32.le_iff_toNat_le.mp (UInt32.not_lt.mp large)
    simp only [large, if_false, UInt32.toNat_toUInt8, Nat.reducePow]
    omega

theorem pack_ok (major minor : UInt8) (patch : UInt32) :
    pack major minor patch = .ok (make major minor patch) := by
  have size : UInt32.size = 4294967296 := rfl
  have code := (make major minor patch).code_toNat
  have bounded := (make major minor patch).code.toNat_lt
  have high : (major.toUInt32 <<< 16).toNat = (make major minor patch).major.toNat * 65536 :=
    toNat_shiftLeft_16 major
  have middle : (minor.toUInt32 <<< 8).toNat = (make major minor patch).minor.toNat * 256 :=
    toNat_shiftLeft_8 minor
  have upper : within UInt32.size ((major.toUInt32 <<< 16).toNat + (minor.toUInt32 <<< 8).toNat) =
      .ok ((major.toUInt32 <<< 16).toNat + (minor.toUInt32 <<< 8).toNat) := within_ok (by omega)
  have whole : within UInt32.size ((major.toUInt32 <<< 16).toNat + (minor.toUInt32 <<< 8).toNat +
      (if patch > 255 then 255 else patch).toNat) = .ok (make major minor patch).code.toNat := by
    rw [capped_toNat major minor patch, high, middle, ← code]
    exact within_ok (by omega)
  simp only [pack, upper, whole, bind, Except.bind, pure, Except.pure, UInt32.ofNat_toNat, ofCode_code]

theorem verdict_two (major minor : UInt32) :
    verdict [major, minor] =
      .ok (if major > 255 ∨ minor > 255 then none else some (make major.toUInt8 minor.toUInt8 0)) := by
  rw [verdict, pack_ok]
  split <;> rfl

theorem verdict_three (major minor patch : UInt32) :
    verdict [major, minor, patch] =
      .ok (if major > 255 ∨ minor > 255 then none
        else some (make major.toUInt8 minor.toUInt8 patch)) := by
  rw [verdict, pack_ok]
  split <;> rfl

/-- The numbers of a pass stay in bounds, so that no digit overflows them, however many there are. -/
theorem scan_run (digits : ∀ c ∈ run, c.isDigit) (small : p.current.toNat ≤ 65535)
    (room : p.digits + run.length < countLimit) :
    p.scan (run ++ rest) =
      if Nat.ofDigitChars 10 run p.current.toNat ≤ 65535 then
        scan ⟨p.ended, .ofNat (Nat.ofDigitChars 10 run p.current.toNat), p.digits + run.length⟩ rest
      else .ok none := by
  induction run generalizing p with
  | nil =>
    rw [List.nil_append, Nat.ofDigitChars_nil, if_pos small, UInt32.ofNat_toNat]
    rfl
  | cons c run ih =>
    have digit : c.isDigit := digits c List.mem_cons_self
    rw [List.length_cons] at room
    have appended := append_ok digit small (p := p) (by omega)
    rw [List.cons_append, Nat.ofDigitChars_cons, ← next_toNat small digit]
    simp only [scan, digit, if_true, appended, bind, Except.bind, largestNumber_lt]
    split
    · have grown := le_ofDigitChars run (p.current * 10 + (c.val - '0'.val)).toNat
      rw [if_neg (by omega)]
    next fits =>
      have later := ih (p := ⟨p.ended, p.current * 10 + (c.val - '0'.val), p.digits + 1⟩)
        (fun d member => digits d (List.mem_cons_of_mem c member)) (by simp only; omega)
        (by simp only; omega)
      rw [later, List.length_cons, Nat.add_assoc, Nat.add_comm 1]

/-- Behind its digits a pass goes on to the next number or comes to its verdict. -/
theorem scan_rest (maximal : ∀ c ∈ rest.head?, ¬ c.isDigit) :
    p.scan rest =
      if rest.head? = some '.' ∧ p.ended.length < 2 then
        if p.digits = 0 then .ok none else scan ⟨p.ended ++ [p.current], 0, 0⟩ rest.tail
      else p.finish := by
  cases rest with
  | nil => simp [scan]
  | cons c rest => simp [scan, maximal c rfl]

theorem scan_no_number (room : text.length < countLimit) (unread : number? text = none) :
    scan ⟨ended, 0, 0⟩ text = .ok none := by
  obtain ⟨run, rest, rfl, digits, maximal⟩ := exists_run text
  rw [number?_run digits maximal] at unread
  cases run with
  | nil =>
    rw [List.nil_append, scan_rest maximal]
    simp [finish]
  | cons c run =>
    have large : ¬ decimal (c :: run) ≤ 65535 := by
      intro fits
      rw [if_pos ⟨List.cons_ne_nil c run, fits⟩] at unread
      contradiction
    rw [List.length_append] at room
    rw [scan_run digits (Nat.zero_le _) (by simp only; omega)]
    exact if_neg large

theorem scan_number (room : text.length < countLimit) (read : number? text = some (n, rest)) :
    scan ⟨ended, 0, 0⟩ text =
      if rest.head? = some '.' ∧ ended.length < 2 then scan ⟨ended ++ [n], 0, 0⟩ rest.tail
      else verdict (ended ++ [n]) := by
  obtain ⟨run, rfl, number, small, rfl⟩ := number?_eq_some_iff.mp read
  have counted : run.length ≠ 0 := fun empty => number.nonempty (List.length_eq_zero_iff.mp empty)
  rw [List.length_append] at room
  have value : Nat.ofDigitChars 10 run (0 : UInt32).toNat = decimal run := rfl
  rw [scan_run number.digits (Nat.zero_le _) (by simp only; omega), value, if_pos small,
    scan_rest number.maximal]
  simp only [finish, Nat.zero_add, counted, if_false]

theorem tail_length (room : text.length < countLimit) (read : number? text = some (n, rest)) :
    rest.tail.length < countLimit := by
  obtain ⟨run, rfl, -⟩ := number?_eq_some_iff.mp read
  rw [List.length_append] at room
  rw [List.length_tail]
  omega

theorem pointNumber?_tail (point : rest.head? = some '.') : pointNumber? rest = number? rest.tail := by
  obtain ⟨behind, rfl⟩ := List.head?_eq_some_iff.mp point
  rfl

/-- The last number decides with the two before it, as far as there is a point for it. -/
theorem scan_third (major minor : UInt32) (room : text.length < countLimit) :
    scan ⟨[major, minor], 0, 0⟩ text = .ok ((number? text).bind fun patch =>
      if major > 255 ∨ minor > 255 then none else some (make major.toUInt8 minor.toUInt8 patch.1)) := by
  cases read : number? text with
  | none => exact scan_no_number room read
  | some found =>
    rw [scan_number room read, if_neg (by simp)]
    exact verdict_three major minor found.1

theorem scan_second (major : UInt32) (room : text.length < countLimit) :
    scan ⟨[major], 0, 0⟩ text = .ok ((number? text).bind fun minor =>
      ofNumbers? major minor.1 minor.2) := by
  cases read : number? text with
  | none => exact scan_no_number room read
  | some found =>
    obtain ⟨minor, rest⟩ := found
    rw [scan_number room read, Option.bind_some, ofNumbers?]
    by_cases point : rest.head? = some '.'
    · rw [if_pos ⟨point, by simp⟩, List.singleton_append, scan_third major minor (tail_length room read),
        pointNumber?_tail point]
      cases number? rest.tail <;> simp [point]
    · rw [if_neg (fun both => point both.1), if_neg point]
      exact verdict_two major minor

/-- The pass does not overflow and comes to what the reader gives. -/
theorem scan_eq (room : text.length < countLimit) : scan {} text = .ok (ofReleaseChars? text) := by
  rw [ofReleaseChars?_eq]
  cases read : number? text with
  | none => exact scan_no_number room read
  | some found =>
    obtain ⟨major, rest⟩ := found
    rw [scan_number room read, Option.bind_some]
    by_cases point : rest.head? = some '.'
    · rw [if_pos ⟨point, by simp⟩, List.nil_append, scan_second major (tail_length room read),
        pointNumber?_tail point]
    · rw [if_neg (fun both => point both.1), pointNumber?_none point]
      rfl

end Pass

/-- A release text states a version exactly if the grammar says so, and then that one. A pass over it comes
to the same, and overflows in no word, as long as its digits can be counted. -/
theorem ofRelease?_grammar (release : String) :
    (∀ v, ofRelease? release = some v ↔ States release.toList v) ∧
    (ofRelease? release = none ↔ ∀ v, ¬ States release.toList v) ∧
    (release.length < Pass.countLimit →
      Pass.scan {} release.toList = .ok (ofRelease? release)) := by
  have exact (v : Version) : ofRelease? release = some v ↔ States release.toList v :=
    ofReleaseChars?_eq_some_iff
  refine ⟨exact, ?_, ?_⟩
  · rw [Option.eq_none_iff_forall_ne_some]
    exact forall_congr' fun v => not_congr (exact v)
  · intro short
    exact Pass.scan_eq short

/-- Zeros lead, the patch number saturates, and the vendor's part begins with a point of its own. -/
theorem ofRelease?_grammar_vendor :
    let release := "4.014.00302-perf.7"
    release.length < Pass.countLimit ∧ ofRelease? release = some (make 4 14 302) ∧
    Pass.scan {} release.toList = .ok (some (make 4 14 302)) := by
  intro release
  obtain ⟨exact, -, pass⟩ := ofRelease?_grammar release
  have short : release.length < Pass.countLimit := by decide
  have major : Run "4".toList ".014.00302-perf.7".toList := ⟨by simp, by simp, by simp⟩
  have minor : Run "014".toList ".00302-perf.7".toList := ⟨by simp, by simp, by simp⟩
  have patch : Run "00302".toList "-perf.7".toList := ⟨by simp, by simp, by simp⟩
  have text : release.toList =
      "4".toList ++ '.' :: ("014".toList ++ '.' :: ("00302".toList ++ "-perf.7".toList)) := by decide
  have states : States release.toList (make 4 14 302) := by
    rw [text]
    exact States.three major minor patch (by decide) (by decide) (by decide)
  have read := (exact _).mpr states
  exact ⟨short, read, read ▸ pass short⟩

end KernelAbi.Version
