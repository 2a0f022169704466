import KernelAbi.Proofs.FirstFree
import KernelAbi.Proofs.FlagInclusion
import Mathlib.Algebra.Order.Floor.Div

/-! The storage of a bitmap. For every number of bits there is a request of the fewest words that hold them,
and of one word for none. It is refused exactly when it is not granted, so a bitmap that there is has a
position for each of its bits, and its positions can be counted in a word. -/
namespace KernelAbi

/-- Eight bytes of poison make a word of it. -/
theorem Memory.freshWord_eq (flags : AllocationFlags) :
    Memory.freshWord flags = if flags.has Allocation.zeroed then 0 else 0x5a5a5a5a5a5a5a5a := by
  unfold Memory.freshWord Memory.freshByte
  cases flags.has Allocation.zeroed <;> decide

theorem wordsFor_eq_ceilDiv (bits : UInt64) : (wordsFor bits).toNat = bits.toNat ⌈/⌉ 64 :=
  toNat_wordsFor bits

namespace Bitmap

/-- A bitmap of so many bits, all of whose words are the same one. -/
structure Stores (b : Bitmap) (bits : Nat) (word : BitVec 64) : Prop where
  size : b.size = bits
  words : b.words = Array.replicate (max 1 (bits ⌈/⌉ 64)) word
  storage : b.storageBits = 64 * max 1 (bits ⌈/⌉ 64)
  addressable : b.storageBits < UInt64.size
  covers : bits ≤ b.storageBits
  tight : 0 < bits → b.storageBits < bits + 64

section Storage

variable (bits : UInt64) (flags : AllocationFlags) (log : Log)

theorem storageFor_eq : storageFor bits = max 1 (bits.toNat ⌈/⌉ 64) := by
  rw [storageFor, wordsFor_eq_ceilDiv]

theorem allocate_eq_none_iff :
    ((allocate bits flags).run log).1 = none ↔ ¬ Memory.Granted (8 * storageFor bits) := by
  unfold allocate
  by_cases granted : Memory.Granted (8 * storageFor bits)
  · simp only [granted, not_true_eq_false, if_false, iff_false]
    exact Option.some_ne_none _
  · simp only [granted, not_false_eq_true, if_true, iff_true]
    rfl

/-- A request is refused from two to the fiftieth bytes on. -/
theorem not_granted_iff :
    ¬ Memory.Granted (8 * storageFor bits) ↔ 2 ^ 50 ≤ 8 * max 1 (bits.toNat ⌈/⌉ 64) := by
  rw [storageFor_eq]
  exact Nat.not_lt

/-- What is granted can be addressed bit by bit. -/
theorem fresh_stores (granted : Memory.Granted (8 * storageFor bits)) :
    (fresh bits flags).Stores bits.toNat (Memory.freshWord flags) := by
  have limited : 8 * storageFor bits < 2 ^ 50 := granted
  have words : storageFor bits = max 1 ((bits.toNat + 63) / 64) := storageFor_eq bits
  have storage : (fresh bits flags).storageBits = 64 * storageFor bits := by
    rw [storageBits, fresh, Array.size_replicate]
  have width : UInt64.size = 2 ^ 64 := rfl
  refine ⟨rfl, ?_, ?_, by omega, by omega, fun _ => by omega⟩
  · exact congrArg (Array.replicate · (Memory.freshWord flags)) (storageFor_eq bits)
  · rw [storage, storageFor_eq]

variable {bits flags log} {b : Bitmap}

theorem stores_of_allocated (allocated : ((allocate bits flags).run log).1 = some b) :
    b.Stores bits.toNat (Memory.freshWord flags) := by
  have granted : Memory.Granted (8 * storageFor bits) := by
    by_contra refused
    rw [(allocate_eq_none_iff bits flags log).mpr refused] at allocated
    contradiction
  obtain rfl := allocate_fresh allocated
  exact fresh_stores bits flags granted

theorem Stores.bit_clear {size : Nat} (stores : b.Stores size 0) (i : Nat) : b.bit i = false := by
  unfold bit
  rw [stores.words, Array.getD_eq_getD_getElem?, Array.getElem?_replicate]
  split <;> exact BitVec.getLsbD_zero

/-- A bitmap without a set bit has its first index free, if it has one. -/
theorem Stores.firstFree?_clear {size : Nat} (stores : b.Stores size 0) :
    b.firstFree? = some 0 ↔ 0 < size := by
  rw [firstFree?_eq_some_iff, stores.size]
  constructor
  · rintro ⟨inside, -, -⟩
    exact inside
  · intro inside
    exact ⟨inside, stores.bit_clear 0, fun j before => absurd before (Nat.not_lt_zero j)⟩

end Storage

/-- The words of a request are the ceiling of its bits, and the sum that gives it does not leave the word.
A bitmap is refused exactly when its words come to two to the fiftieth bytes or more. Otherwise it has these
words, clear if that was asked for and poisoned if not, and no more positions than an index can name. One
that was to be clear is empty, whatever else was asked for, and its first index is free if it has any. -/
theorem allocate_exact (bits : UInt64) (flags : AllocationFlags) (log : Log) :
    let words := max 1 (bits.toNat ⌈/⌉ 64)
    let allocated := ((allocate bits flags).run log).1
    let cleared := ((allocateClear bits flags).run log).1
    (wordsFor bits).toNat = bits.toNat ⌈/⌉ 64 ∧
    (allocated = none ↔ 2 ^ 50 ≤ 8 * words) ∧ (cleared = none ↔ 2 ^ 50 ≤ 8 * words) ∧
    (∀ b, allocated = some b →
      b.Stores bits.toNat (if flags.has Allocation.zeroed then 0 else 0x5a5a5a5a5a5a5a5a)) ∧
    ∀ b, cleared = some b →
      b.Stores bits.toNat 0 ∧ b.isEmpty ∧ (b.firstFree? = some 0 ↔ 0 < bits.toNat) := by
  intro words allocated cleared
  have refused (flags : AllocationFlags) :
      ((allocate bits flags).run log).1 = none ↔ 2 ^ 50 ≤ 8 * words :=
    (allocate_eq_none_iff bits flags log).trans (not_granted_iff bits)
  refine ⟨wordsFor_eq_ceilDiv bits, refused flags, refused (flags.insert Allocation.zeroed), ?_, ?_⟩
  · intro b allocated
    rw [← Memory.freshWord_eq]
    exact stores_of_allocated allocated
  · intro b cleared
    have zero : Memory.freshWord (flags.insert Allocation.zeroed) = 0 := by
      rw [Memory.freshWord_eq, if_pos (Flags.has_insert flags Allocation.zeroed)]
    have stores : b.Stores bits.toNat 0 := zero ▸ stores_of_allocated cleared
    have empty : b.isEmpty = true := (isEmpty_iff b).mpr fun i _ => stores.bit_clear i
    exact ⟨stores, empty, stores.firstFree?_clear⟩

/-- The most bits that there are, none at all, and two words of which the second has one bit. -/
theorem allocate_exact_extremes :
    let most := ((allocate 0xffffffffffffffff .empty).run {}).1
    let least := fresh 0 (Flags.empty.insert Allocation.zeroed)
    let poisoned := fresh 65 .empty
    most = none ∧
    ((allocateClear 0 .empty).run {}).1 = some least ∧ least.storageBits = 64 ∧
    least.isEmpty ∧ least.firstFree? ≠ some 0 ∧
    ((allocate 65 .empty).run {}).1 = some poisoned ∧ poisoned.storageBits = 128 ∧
    poisoned.words = #[0x5a5a5a5a5a5a5a5a, 0x5a5a5a5a5a5a5a5a] := by
  intro most least poisoned
  have noBits : ((allocateClear 0 .empty).run {}).1 = some least := rfl
  have two : ((allocate 65 .empty).run {}).1 = some poisoned := rfl
  obtain ⟨-, refused, -⟩ := allocate_exact 0xffffffffffffffff .empty {}
  obtain ⟨-, -, -, -, cleared⟩ := allocate_exact 0 .empty {}
  obtain ⟨-, -, -, allocated, -⟩ := allocate_exact 65 .empty {}
  obtain ⟨stores, empty, first⟩ := cleared least noBits
  have stored := allocated poisoned two
  exact ⟨refused.mpr (by decide), noBits, stores.storage, empty, fun free => by simpa using first.mp free,
    two, stored.storage, stored.words⟩

end Bitmap
end KernelAbi
