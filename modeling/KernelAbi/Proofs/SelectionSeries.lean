import KernelAbi.Proofs.ReleaseGrammar
import KernelAbi.Selection.Resolve

/-! What a selection depends on: the first two numbers of the version and the flags that have a name.
Neither a patch number, however it was stated, nor a bit without a name has a part in any decision. -/
namespace KernelAbi

namespace Version

/-- Versions of one series differ in nothing but the patch. -/
structure SameSeries (v w : Version) : Prop where
  major : v.major = w.major
  minor : v.minor = w.minor

section Series

variable {first v w : Version}

/-- Versions of one series are on the same side of the first version of any. -/
theorem le_congr (same : v.SameSeries w) (begins : first.patch = 0) : first ≤ v ↔ first ≤ w := by
  have zero : first.patch.toNat = 0 := congrArg UInt8.toNat begins
  have patch := v.patch.toNat_lt
  have patch' := w.patch.toNat_lt
  have minor := first.minor.toNat_lt
  have minor' := w.minor.toNat_lt
  rw [le_iff, le_iff, UInt32.le_iff_toNat_le, UInt32.le_iff_toNat_le, code_toNat, code_toNat, code_toNat,
    same.major, same.minor]
  omega

theorem lt_congr (same : v.SameSeries w) (begins : first.patch = 0) : v < first ↔ w < first := by
  rw [← not_le, ← not_le, le_congr same begins]

theorem Window.contains_congr {window : Window} (same : v.SameSeries w) (begins : window.first.patch = 0)
    (ends : window.past.patch = 0) : window.Contains v ↔ window.Contains w :=
  and_congr (le_congr same begins) (lt_congr same ends)

end Series

/-- The first two numbers of a release text, whatever stands between and behind them. -/
def leadingNumbers (release : List Char) : Nat × Nat :=
  let behind := release.dropWhile Char.isDigit
  (decimal (release.takeWhile Char.isDigit), decimal ((behind.drop 1).takeWhile Char.isDigit))

/-- The first two numbers that a statement names. -/
def Statement.numbers : Statement → Nat × Nat
  | .release text => leadingNumbers text.toList
  | .code packed => (packed.toNat / 65536 % 256, packed.toNat / 256 % 256)
  | .parts major minor _ => (major.toNat, minor.toNat)

section Numbers

variable {run rest : List Char}

theorem Run.takeWhile (number : Run run rest) : (run ++ rest).takeWhile Char.isDigit = run := by
  rw [List.takeWhile_append_of_pos number.digits]
  cases rest with
  | nil => simp
  | cons c rest => simp [number.maximal c rfl]

theorem Run.dropWhile (number : Run run rest) : (run ++ rest).dropWhile Char.isDigit = rest := by
  rw [List.dropWhile_append_of_pos number.digits]
  cases rest with
  | nil => rfl
  | cons c rest => simp [number.maximal c rfl]

theorem leadingNumbers_run {major minor : List Char} (first : Run major ('.' :: (minor ++ rest)))
    (second : Run minor rest) :
    leadingNumbers (major ++ '.' :: (minor ++ rest)) = (decimal major, decimal minor) := by
  simp only [leadingNumbers, first.takeWhile, first.dropWhile, List.drop_succ_cons, List.drop_zero,
    second.takeWhile]

/-- A text names the numbers of the version that it states. -/
theorem leadingNumbers_of_states {text : List Char} {v : Version} (states : States text v) :
    leadingNumbers text = (v.major.toNat, v.minor.toNat) := by
  have byte {number : List Char} (fits : decimal number ≤ 255) :
      (UInt8.ofNat (decimal number)).toNat = decimal number :=
    UInt8.toNat_ofNat_of_lt' (Nat.lt_of_le_of_lt fits (by decide))
  cases states with
  | two first second noPoint majorFits minorFits =>
    rw [leadingNumbers_run first second, make, byte majorFits, byte minorFits]
  | three first second third majorFits minorFits patchFits =>
    rw [leadingNumbers_run first second, make, byte majorFits, byte minorFits]

/-- However a version is stated, its first two numbers are those that were named. -/
theorem Statement.numbers_eq {s : Statement} {v : Version} (stated : s.version? = some v) :
    s.numbers = (v.major.toNat, v.minor.toNat) := by
  cases s with
  | release text => exact leadingNumbers_of_states (ofReleaseChars?_eq_some_iff.mp stated)
  | code packed =>
    obtain rfl : ofCode packed = v := Option.some.inj stated
    simp only [numbers, ofCode, UInt32.toNat_toUInt8, UInt32.toNat_shiftRight, UInt32.reduceToNat,
      Nat.reduceMod, Nat.shiftRight_eq_div_pow, Nat.reducePow]
  | parts major minor patch =>
    obtain rfl : make major minor patch = v := Option.some.inj stated
    rfl

theorem Statement.sameSeries {s t : Statement} {v w : Version} (stated : s.version? = some v)
    (stated' : t.version? = some w) (same : s.numbers = t.numbers) : v.SameSeries w := by
  rw [numbers_eq stated, numbers_eq stated'] at same
  obtain ⟨major, minor⟩ := Prod.mk.inj same
  exact ⟨UInt8.toNat.inj major, UInt8.toNat.inj minor⟩

end Numbers
end Version

namespace Selection

/-- The flag words agree on every flag that has a name of its own. -/
def SameNamed (f g : VendorFlags) : Prop := ∀ mask ∈ Vendor.singles, f.has mask.bits = g.has mask.bits

/-- `t` decides as `s` does, for a version and for flags that may be others. -/
def SameDecisions (s t : Selection) : Prop := t = { s with version := t.version, flags := t.flags }

/-- Refused for the same culprits, or resolved with the same decisions. -/
inductive SameOutcome : Except Forbidden Selection → Except Forbidden Selection → Prop where
  | refused (e : Forbidden) : SameOutcome (.error e) (.error e)
  | resolved {s t : Selection} (same : s.SameDecisions t) : SameOutcome (.ok s) (.ok t)

section Flags

variable {f g : VendorFlags} {v w : Version}

/-- A flag is one bit, so that there is nothing more to a word at that flag than whether it has it. -/
theorem and_single_congr {k : Nat} (same : f.has (BitVec.twoPow 32 k) = g.has (BitVec.twoPow 32 k)) :
    f.bits &&& BitVec.twoPow 32 k = g.bits &&& BitVec.twoPow 32 k := by
  simp only [Flags.has, BitVec.and_twoPow] at same ⊢
  split at same <;> split at same <;> simp_all

/-- What is forbidden in a word is the union of the three protections that it has. -/
theorem and_forbidden_congr (agree : SameNamed f g) :
    f.bits &&& Vendor.forbiddenSecurity = g.bits &&& Vendor.forbiddenSecurity := by
  have hypervisor : f.bits &&& Vendor.hypervisor = g.bits &&& Vendor.hypervisor :=
    and_single_congr (k := 2) (agree ⟨"CONFIG_UH", Vendor.hypervisor⟩ (by decide))
  have dataProtection : f.bits &&& Vendor.dataProtection = g.bits &&& Vendor.dataProtection :=
    and_single_congr (k := 3) (agree ⟨"CONFIG_KDP", Vendor.dataProtection⟩ (by decide))
  have realtimeProtection : f.bits &&& Vendor.realtimeProtection = g.bits &&& Vendor.realtimeProtection :=
    and_single_congr (k := 4) (agree ⟨"CONFIG_RKP", Vendor.realtimeProtection⟩ (by decide))
  simp only [Vendor.forbiddenSecurity, BitVec.and_or_distrib_left, hypervisor, dataProtection,
    realtimeProtection]

theorem has_congr (agree : SameNamed f g) {bits : BitVec 32}
    (named : bits ∈ Vendor.singles.map (·.bits)) : f.has bits = g.has bits := by
  obtain ⟨mask, member, rfl⟩ := List.mem_map.mp named
  exact agree mask member

theorem forbidden?_congr (agree : SameNamed f g) : forbidden? f = forbidden? g := by
  have driver : f.has Vendor.hypervisorDriver = g.has Vendor.hypervisorDriver := has_congr agree (by decide)
  have protections : f.meets Vendor.forbiddenSecurity = g.meets Vendor.forbiddenSecurity :=
    congrArg (· != 0) (and_forbidden_congr agree)
  rw [forbidden?, forbidden?, driver, protections, and_forbidden_congr agree]

theorem isHisilicon_congr (same : v.SameSeries w) (agree : SameNamed f g) :
    isHisilicon v f = isHisilicon w g := by
  have windows : ∀ window ∈ Threshold.hisiliconSeries, window.first.patch = 0 ∧ window.past.patch = 0 := by
    decide
  have series : Threshold.hisiliconSeries.any (·.Contains v) = Threshold.hisiliconSeries.any (·.Contains w) := by
    rw [Bool.eq_iff_iff, List.any_eq_true, List.any_eq_true]
    refine exists_congr fun window => and_congr_right fun member => ?_
    obtain ⟨begins, ends⟩ := windows window member
    rw [decide_eq_true_eq, decide_eq_true_eq, Version.Window.contains_congr same begins ends]
  have readOnly : f.has Vendor.hisiliconReadOnly = g.has Vendor.hisiliconReadOnly := has_congr agree (by decide)
  rw [isHisilicon, isHisilicon, readOnly, series]

/-- Each version at which something changed is the first of its series, and each flag that is asked for has
a name. -/
theorem of_congr (same : v.SameSeries w) (agree : SameNamed f g) : (of v f).SameDecisions (of w g) := by
  have since {first : Version} (begins : first.patch = 0) : w < first ↔ v < first :=
    (Version.lt_congr same begins).symm
  have flag {bits : BitVec 32} (named : bits ∈ Vendor.singles.map (·.bits)) : g.has bits = f.has bits :=
    (has_congr agree named).symm
  simp (disch := decide) only [SameDecisions, of, stringCopyFor, hooksFor, ← Version.not_lt, since, flag,
    isHisilicon_congr same agree]

theorem resolve_congr (same : v.SameSeries w) (agree : SameNamed f g) :
    SameOutcome (resolve v f) (resolve w g) := by
  rw [resolve, resolve, forbidden?_congr agree]
  cases forbidden? g with
  | some e => exact .refused e
  | none => exact .resolved (of_congr same agree)

end Flags

/-- The outcome depends on the first two numbers of the version and on the named flags alone. That holds
for versions as they are and for versions as they are stated: the rest of a release text, a patch number of
any size and a bit that no flag names change no decision, and not what is reported of a refusal. -/
theorem resolve_series {f g : VendorFlags} (agree : SameNamed f g) :
    (∀ v w : Version, v.major = w.major → v.minor = w.minor → SameOutcome (resolve v f) (resolve w g)) ∧
    (∀ (s t : Version.Statement) (v w : Version), s.version? = some v → t.version? = some w →
      s.numbers = t.numbers → SameOutcome (resolve v f) (resolve w g)) := by
  constructor
  · intro v w major minor
    exact resolve_congr ⟨major, minor⟩ agree
  · intro s t v w stated stated' same
    exact resolve_congr (Version.Statement.sameSeries stated stated' same) agree

/-- A vendor's release text and numbers with a patch that saturates, in a series where the vendor matters,
and words that differ in all bits without a name. -/
theorem resolve_series_vendor :
    let f : VendorFlags := ⟨Vendor.hisiliconReadOnly ||| Vendor.hypervisorDriver⟩
    let g : VendorFlags := ⟨f.bits ||| ~~~Vendor.vocabulary.known⟩
    let s : Version.Statement := .release "4.014.7-perf+"
    let t : Version.Statement := .parts 4 14 4000000000
    SameNamed f g ∧ s.version? = some (.make 4 14 7) ∧ t.version? = some (.make 4 14 255) ∧
    s.numbers = t.numbers ∧ SameOutcome (resolve (.make 4 14 7) f) (resolve (.make 4 14 255) g) := by
  intro f g s t
  have agree : SameNamed f g := by
    unfold SameNamed
    decide
  have stated : s.version? = some (.make 4 14 7) := by decide
  have stated' : t.version? = some (.make 4 14 255) := by decide
  have same : s.numbers = t.numbers := by decide
  exact ⟨agree, stated, stated', same, (resolve_series agree).2 s t _ _ stated stated' same⟩

end Selection
end KernelAbi
