import KernelAbi.Version
import Mathlib.Data.Prod.Lex

/-! The order of versions. Codes are compared as words, and that is the order of the numbers, the weightiest
first and the patch number as far as a byte holds it. A code gives back the numbers that went into it, and a
word read as a code loses its upper byte and nothing else. -/
namespace KernelAbi.Version

/-- The numbers of a version by their weight. -/
def rank (major minor : UInt8) (patch : UInt32) : ℕ ×ₗ ℕ ×ₗ ℕ :=
  toLex (major.toNat, toLex (minor.toNat, min patch.toNat 255))

section Packing

variable (major minor : UInt8) (patch : UInt32)

/-- A patch number that does not fit its byte fills it. -/
theorem make_patch_toNat : (make major minor patch).patch.toNat = min patch.toNat 255 := by
  simp only [make]
  split
  next large =>
    have beyond : 255 < patch.toNat := UInt32.lt_iff_toNat_lt.mp large
    exact (Nat.min_eq_right (Nat.le_of_lt beyond)).symm
  next small =>
    have fits : patch.toNat ≤ 255 := UInt32.le_iff_toNat_le.mp (UInt32.not_lt.mp small)
    rw [UInt32.toNat_toUInt8, Nat.min_eq_left fits]
    exact Nat.mod_eq_of_lt (Nat.lt_succ_of_le fits)

theorem code_make :
    (make major minor patch).code =
      (major.toUInt32 <<< 16) + (minor.toUInt32 <<< 8) + min patch 255 := by
  have capped : (make major minor patch).patch.toUInt32 = min patch 255 := by
    apply UInt32.toNat.inj
    rw [UInt8.toNat_toUInt32, make_patch_toNat, UInt32.toNat_min]
    rfl
  rw [code, capped]
  rfl

end Packing

theorem code_lt (v : Version) : v.code < 0x1000000 := by
  have major := v.major.toNat_lt
  have minor := v.minor.toNat_lt
  have patch := v.patch.toNat_lt
  have bound : (0x1000000 : UInt32).toNat = 16777216 := rfl
  rw [UInt32.lt_iff_toNat_lt, code_toNat, bound]
  omega

theorem code_ofCode (code : UInt32) : (ofCode code).code = code &&& 0xFFFFFF := by
  have low : (code &&& 0xFFFFFF).toNat = code.toNat % 16777216 := by
    rw [UInt32.toNat_and]
    exact Nat.and_two_pow_sub_one_eq_mod code.toNat 24
  apply UInt32.toNat.inj
  rw [code_toNat, low]
  simp only [ofCode, UInt32.toNat_toUInt8, UInt32.toNat_shiftRight, UInt32.reduceToNat, Nat.reduceMod,
    Nat.shiftRight_eq_div_pow, Nat.reducePow]
  omega

/-- A version is the one of its own numbers. -/
theorem make_self (v : Version) : make v.major v.minor v.patch.toUInt32 = v := by
  have small := v.patch.toNat_lt
  have kept : (make v.major v.minor v.patch.toUInt32).patch = v.patch := by
    apply UInt8.toNat.inj
    rw [make_patch_toNat, UInt8.toNat_toUInt32]
    omega
  calc make v.major v.minor v.patch.toUInt32
      = ⟨v.major, v.minor, (make v.major v.minor v.patch.toUInt32).patch⟩ := rfl
    _ = v := by rw [kept]

section Order

variable {v w : Version}

theorem code_injective (same : v.code = w.code) : v = w := by
  rw [← ofCode_code v, same, ofCode_code]

/-- No byte outweighs the ones before it. -/
theorem le_iff_bytes : v ≤ w ↔ v.major.toNat < w.major.toNat ∨ v.major.toNat = w.major.toNat ∧
    (v.minor.toNat < w.minor.toNat ∨ v.minor.toNat = w.minor.toNat ∧ v.patch.toNat ≤ w.patch.toNat) := by
  have minor := v.minor.toNat_lt
  have patch := v.patch.toNat_lt
  have minor' := w.minor.toNat_lt
  have patch' := w.patch.toNat_lt
  rw [le_iff, UInt32.le_iff_toNat_le, code_toNat, code_toNat]
  omega

theorem make_le_make_iff {major minor major' minor' : UInt8} {patch patch' : UInt32} :
    make major minor patch ≤ make major' minor' patch' ↔
      rank major minor patch ≤ rank major' minor' patch' := by
  rw [le_iff_bytes, rank, rank, Prod.Lex.toLex_le_toLex, Prod.Lex.toLex_le_toLex, make_patch_toNat,
    make_patch_toNat]
  rfl

theorem compare_eq_lt_iff : compare v w = .lt ↔ v < w := Std.compare_eq_lt (a := v.code)

theorem compare_eq_gt_iff : compare v w = .gt ↔ w < v := Std.compare_eq_gt (a := v.code)

theorem compare_eq_eq_iff : compare v w = .eq ↔ v = w := by
  have codes : compare v w = .eq ↔ v.code = w.code := Std.compare_eq_eq_iff_eq (a := v.code)
  exact codes.trans ⟨code_injective, congrArg code⟩

end Order

/-- One version is at least another exactly if its numbers are, the weightiest first. Below is the contrary, a
window leaves its end out, and comparing agrees with both. The code of a version is the sum of its shifted
numbers, which stays within the word, and is read back without loss; a word read as a code keeps its lower
three bytes, and the version they are is made again from its own numbers. -/
theorem code_faithful :
    (∀ (major minor major' minor' : UInt8) (patch patch' : UInt32),
      make major' minor' patch' ≤ make major minor patch ↔
        rank major' minor' patch' ≤ rank major minor patch) ∧
    (∀ v w : Version, (v < w ↔ ¬ w ≤ v) ∧
      (compare v w = .lt ↔ v < w) ∧ (compare v w = .eq ↔ v = w) ∧ (compare v w = .gt ↔ w < v)) ∧
    (∀ (window : Window) (v : Version), window.Contains v ↔ window.first ≤ v ∧ ¬ window.past ≤ v) ∧
    (∀ (major minor : UInt8) (patch : UInt32),
      (make major minor patch).code =
        (major.toUInt32 <<< 16) + (minor.toUInt32 <<< 8) + min patch 255 ∧
      (make major minor patch).code.toNat =
        major.toNat * 0x10000 + minor.toNat * 0x100 + min patch.toNat 255 ∧
      let read := ofCode (make major minor patch).code
      read.major = major ∧ read.minor = minor ∧ read.patch.toNat = min patch.toNat 255) ∧
    (∀ v : Version, ofCode v.code = v ∧ v.code < 0x1000000) ∧
    (∀ code : UInt32, (ofCode code).code = code &&& 0xFFFFFF ∧
      make (ofCode code).major (ofCode code).minor (ofCode code).patch.toUInt32 = ofCode code) := by
  refine ⟨?_, ?_, ?_, ?_, ?_, ?_⟩
  · intro major minor major' minor' patch patch'
    exact make_le_make_iff
  · intro v w
    exact ⟨not_le.symm, compare_eq_lt_iff, compare_eq_eq_iff, compare_eq_gt_iff⟩
  · intro window v
    exact and_congr_right fun _ => not_le.symm
  · intro major minor patch
    refine ⟨code_make major minor patch, ?_, ?_⟩
    · rw [code_toNat, make_patch_toNat]
      rfl
    · simp only [ofCode_code]
      exact ⟨rfl, rfl, make_patch_toNat major minor patch⟩
  · intro v
    exact ⟨ofCode_code v, code_lt v⟩
  · intro code
    exact ⟨code_ofCode code, make_self (ofCode code)⟩

/-- A long-lived series stays below the next minor. -/
example : make 4 4 302 < make 4 5 0 ∧ ¬ make 4 4 302 < make 4 4 255 := by decide

end KernelAbi.Version
