/-! Kernel versions. A version has three bytes and is compared through its code, the bytes packed
most significant first, as the kernel's own version macros do. -/
namespace KernelAbi

structure Version where
  major : UInt8
  minor : UInt8
  patch : UInt8
deriving DecidableEq, Repr

namespace Version

/-- Patch numbers above 255 saturate, so that a long-lived series never overtakes the next minor. -/
def make (major minor : UInt8) (patch : UInt32) : Version :=
  ⟨major, minor, if patch > 255 then 255 else patch.toUInt8⟩

def code (v : Version) : UInt32 :=
  (v.major.toUInt32 <<< 16) + (v.minor.toUInt32 <<< 8) + v.patch.toUInt32

/-- Reads the low 24 bits of a version code. -/
def ofCode (code : UInt32) : Version :=
  ⟨(code >>> 16).toUInt8, (code >>> 8).toUInt8, code.toUInt8⟩

theorem toNat_shiftLeft_16 (byte : UInt8) : (byte.toUInt32 <<< 16).toNat = byte.toNat * 65536 := by
  have bound := byte.toNat_lt
  simp only [UInt32.toNat_shiftLeft, UInt8.toNat_toUInt32, UInt32.reduceToNat, Nat.reduceMod,
    Nat.shiftLeft_eq, Nat.reducePow]
  omega

theorem toNat_shiftLeft_8 (byte : UInt8) : (byte.toUInt32 <<< 8).toNat = byte.toNat * 256 := by
  have bound := byte.toNat_lt
  simp only [UInt32.toNat_shiftLeft, UInt8.toNat_toUInt32, UInt32.reduceToNat, Nat.reduceMod,
    Nat.shiftLeft_eq, Nat.reducePow]
  omega

/-- The bytes do not reach into one another, and the sum does not leave the word. -/
theorem code_toNat (v : Version) :
    v.code.toNat = v.major.toNat * 65536 + v.minor.toNat * 256 + v.patch.toNat := by
  have major := v.major.toNat_lt
  have minor := v.minor.toNat_lt
  have patch := v.patch.toNat_lt
  rw [code, UInt32.toNat_add, UInt32.toNat_add, toNat_shiftLeft_16, toNat_shiftLeft_8,
    UInt8.toNat_toUInt32]
  omega

theorem ofCode_code (v : Version) : ofCode v.code = v := by
  have exact := v.code_toNat
  have major := v.major.toNat_lt
  have minor := v.minor.toNat_lt
  have patch := v.patch.toNat_lt
  have first : (v.code >>> 16).toUInt8 = v.major := by
    apply UInt8.toNat.inj
    simp only [UInt32.toNat_toUInt8, UInt32.toNat_shiftRight, UInt32.reduceToNat, Nat.reduceMod,
      Nat.shiftRight_eq_div_pow, Nat.reducePow, exact]
    omega
  have second : (v.code >>> 8).toUInt8 = v.minor := by
    apply UInt8.toNat.inj
    simp only [UInt32.toNat_toUInt8, UInt32.toNat_shiftRight, UInt32.reduceToNat, Nat.reduceMod,
      Nat.shiftRight_eq_div_pow, Nat.reducePow, exact]
    omega
  have third : v.code.toUInt8 = v.patch := by
    apply UInt8.toNat.inj
    simp only [UInt32.toNat_toUInt8, Nat.reducePow, exact]
    omega
  rw [ofCode, first, second, third]

instance : LE Version := ⟨fun v w => v.code ≤ w.code⟩
instance : LT Version := ⟨fun v w => v.code < w.code⟩
instance (v w : Version) : Decidable (v ≤ w) := inferInstanceAs (Decidable (v.code ≤ w.code))
instance (v w : Version) : Decidable (v < w) := inferInstanceAs (Decidable (v.code < w.code))
instance : Ord Version := ⟨fun v w => compare v.code w.code⟩

theorem le_iff {v w : Version} : v ≤ w ↔ v.code ≤ w.code := Iff.rfl
theorem lt_iff {v w : Version} : v < w ↔ v.code < w.code := Iff.rfl

theorem not_le {v w : Version} : ¬ v ≤ w ↔ w < v := UInt32.not_le

theorem not_lt {v w : Version} : ¬ v < w ↔ w ≤ v := UInt32.not_lt

theorem le_trans {u v w : Version} (first : u ≤ v) (second : v ≤ w) : u ≤ w := UInt32.le_trans first second

/-- A half-open range of versions. -/
structure Window where
  first : Version
  past : Version
deriving DecidableEq, Repr

namespace Window

def Contains (w : Window) (v : Version) : Prop := w.first ≤ v ∧ v < w.past

instance (w : Window) (v : Version) : Decidable (w.Contains v) :=
  inferInstanceAs (Decidable (w.first ≤ v ∧ v < w.past))

end Window
end Version
end KernelAbi
