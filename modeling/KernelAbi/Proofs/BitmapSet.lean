import KernelAbi.Memory.Script
import Mathlib.Data.Finset.Filter
import Mathlib.Data.Finset.Range
import Mathlib.Data.Finset.SDiff

/-! A bitmap is a set of indices. Whatever it holds when it is allocated, every use of it answers as the
set of its indices does, and changes the one bit that it names: no other bit of the word, no other word
and no padding. -/
namespace KernelAbi.Bitmap

/-- A use of a bitmap as a set. -/
inductive Access where
  | insert (index : Nat)
  | erase (index : Nat)
  | contains (index : Nat)
  | isEmpty
deriving DecidableEq, Repr

namespace Access

def step : Access → Step
  | .insert index => .insert index
  | .erase index => .erase index
  | .contains index => .contains index
  | .isEmpty => .isEmpty

def index? : Access → Option Nat
  | .insert index | .erase index | .contains index => some index
  | .isEmpty => none

/-- What a query finds. A change finds nothing. -/
def found : (access : Access) → access.step.Answer → Option Bool
  | .insert _, _ | .erase _, _ => none
  | .contains _, yes | .isEmpty, yes => some yes

abbrev Reply := Except OutOfRange (Option Bool)

def onBitmap (access : Access) (b : Bitmap) : Reply × Bitmap :=
  let (answer, after) := b.perform access.step
  (answer.map access.found, after)

/-- The same use of a set of indices below `size`. -/
def onSet (size : Nat) (access : Access) (s : Finset Nat) : Reply × Finset Nat :=
  match access with
  | .insert index => if index < size then (.ok none, s ∪ {index}) else (.error ⟨index⟩, s)
  | .erase index => if index < size then (.ok none, s \ {index}) else (.error ⟨index⟩, s)
  | .contains index => if index < size then (.ok (decide (index ∈ s)), s) else (.error ⟨index⟩, s)
  | .isEmpty => (.ok (decide (s = ∅)), s)

/-- The uses in turn, each with its reply. A use that is refused leaves the rest to run. -/
def run {σ : Type} (act : Access → σ → Reply × σ) : List Access → σ → List Reply × σ
  | [], state => ([], state)
  | access :: accesses, state =>
    let (reply, state) := act access state
    let (replies, state) := run act accesses state
    (reply :: replies, state)

end Access

/-- The indices whose bit is set. -/
def indices (b : Bitmap) : Finset Nat := (Finset.range b.size).filter fun i => b.bit i

section Bits

variable (b : Bitmap) (i j : Nat)

theorem mem_indices : i ∈ b.indices ↔ i < b.size ∧ b.bit i := by
  rw [indices, Finset.mem_filter, Finset.mem_range]

@[simp] theorem raise_size : (b.raise i).size = b.size := rfl

@[simp] theorem lower_size : (b.lower i).size = b.size := rfl

/-- The word of an index is there. -/
theorem word_stored (inside : i < b.size) : i / 64 < b.words.size := by
  have := b.size_le
  omega

theorem bit_modifyWord_same {change : BitVec 64 → BitVec 64} (stored : i / 64 < b.words.size)
    (word : j / 64 = i / 64) :
    (b.modifyWord i change).bit j = (change (b.words.getD (i / 64) 0)).getLsbD (j % 64) := by
  simp only [bit, modifyWord, word, Array.getD_eq_getD_getElem?, Array.getElem?_modify, if_true,
    Array.getElem?_eq_getElem stored, Option.map_some, Option.getD_some]

theorem bit_modifyWord_other {change : BitVec 64 → BitVec 64} (word : j / 64 ≠ i / 64) :
    (b.modifyWord i change).bit j = b.bit j := by
  simp only [bit, modifyWord, Array.getD_eq_getD_getElem?, Array.getElem?_modify, if_neg word.symm]

/-- The mask of an index names it among the positions of its word. -/
theorem mask_bit (word : j / 64 = i / 64) :
    (BitVec.twoPow 64 (i % 64)).getLsbD (j % 64) = decide (j = i) := by
  have small : i % 64 < 64 := Nat.mod_lt _ (by decide)
  have position : i % 64 = j % 64 ↔ j = i := by omega
  rw [BitVec.getLsbD_twoPow, decide_eq_true small, Bool.true_and, decide_eq_decide]
  exact position

theorem bit_raise (inside : i < b.size) : (b.raise i).bit j = (decide (j = i) || b.bit j) := by
  by_cases word : j / 64 = i / 64
  · rw [raise, bit_modifyWord_same b i j (b.word_stored i inside) word, BitVec.getLsbD_or,
      mask_bit i j word, Bool.or_comm, bit, word]
  · have apart : j ≠ i := fun same => word (congrArg (· / 64) same)
    rw [raise, bit_modifyWord_other b i j word, decide_eq_false apart, Bool.false_or]

theorem bit_lower (inside : i < b.size) : (b.lower i).bit j = (!decide (j = i) && b.bit j) := by
  by_cases word : j / 64 = i / 64
  · have small : j % 64 < 64 := Nat.mod_lt _ (by decide)
    rw [lower, bit_modifyWord_same b i j (b.word_stored i inside) word, BitVec.getLsbD_and,
      BitVec.getLsbD_not, mask_bit i j word, decide_eq_true small, Bool.true_and, Bool.and_comm, bit, word]
  · have apart : j ≠ i := fun same => word (congrArg (· / 64) same)
    rw [lower, bit_modifyWord_other b i j word, decide_eq_false apart, Bool.not_false, Bool.true_and]

theorem raise_indices (inside : i < b.size) : (b.raise i).indices = b.indices ∪ {i} := by
  ext j
  rw [mem_indices, bit_raise b i j inside, raise_size, Finset.mem_union, mem_indices,
    Finset.mem_singleton, Bool.or_eq_true, decide_eq_true_eq]
  constructor
  · rintro ⟨bound, rfl | set⟩
    · exact .inr rfl
    · exact .inl ⟨bound, set⟩
  · rintro (⟨bound, set⟩ | rfl)
    · exact ⟨bound, .inr set⟩
    · exact ⟨inside, .inl rfl⟩

theorem lower_indices (inside : i < b.size) : (b.lower i).indices = b.indices \ {i} := by
  ext j
  rw [mem_indices, bit_lower b i j inside, lower_size, Finset.mem_sdiff, mem_indices,
    Finset.mem_singleton, Bool.and_eq_true, Bool.not_eq_true', decide_eq_false_iff_not]
  constructor
  · rintro ⟨bound, apart, set⟩
    exact ⟨⟨bound, set⟩, apart⟩
  · rintro ⟨⟨bound, set⟩, apart⟩
    exact ⟨bound, apart, set⟩

theorem isEmpty_iff : b.isEmpty ↔ ∀ i < b.size, b.bit i = false := by
  rw [isEmpty, Nat.all_eq_finRange_all, List.all_eq_true]
  constructor
  · intro clear i inside
    simpa using clear ⟨i, inside⟩ (List.mem_finRange _)
  · intro clear i _
    simp [clear i i.isLt]

end Bits

/-- `b` is what uses made of `origin` whose indices are now those in `s`. -/
structure StandsFor (origin : Bitmap) (s : Finset Nat) (b : Bitmap) : Prop where
  size : b.size = origin.size
  words : b.words.size = origin.words.size
  indices : b.indices = s
  padding : ∀ i, origin.size ≤ i → b.bit i = origin.bit i

theorem standsFor_self (b : Bitmap) : b.StandsFor b.indices b where
  size := rfl
  words := rfl
  indices := rfl
  padding := fun _ _ => rfl

variable {origin b : Bitmap} {s : Finset Nat}

/-- A change of one bit within the size keeps the shape and the padding. -/
theorem StandsFor.modifyWord (stands : origin.StandsFor s b) {i : Nat} (inside : i < b.size)
    {change : BitVec 64 → BitVec 64} (others : ∀ j, j ≠ i → (b.modifyWord i change).bit j = b.bit j) :
    origin.StandsFor (b.modifyWord i change).indices (b.modifyWord i change) where
  size := stands.size
  words := Array.size_modify.trans stands.words
  indices := rfl
  padding := by
    intro j outside
    have apart : j ≠ i := by
      have := stands.size
      omega
    exact (others j apart).trans (stands.padding j outside)

theorem StandsFor.raise (stands : origin.StandsFor s b) {i : Nat} (inside : i < b.size) :
    origin.StandsFor (s ∪ {i}) (b.raise i) := by
  have others (j : Nat) (apart : j ≠ i) : (b.raise i).bit j = b.bit j := by
    rw [bit_raise b i j inside, decide_eq_false apart, Bool.false_or]
  have raised : origin.StandsFor (b.raise i).indices (b.raise i) := stands.modifyWord inside others
  rwa [raise_indices b i inside, stands.indices] at raised

theorem StandsFor.lower (stands : origin.StandsFor s b) {i : Nat} (inside : i < b.size) :
    origin.StandsFor (s \ {i}) (b.lower i) := by
  have others (j : Nat) (apart : j ≠ i) : (b.lower i).bit j = b.bit j := by
    rw [bit_lower b i j inside, decide_eq_false apart, Bool.not_false, Bool.true_and]
  have lowered : origin.StandsFor (b.lower i).indices (b.lower i) := stands.modifyWord inside others
  rwa [lower_indices b i inside, stands.indices] at lowered

theorem StandsFor.isEmpty_eq (stands : origin.StandsFor s b) : b.isEmpty = decide (s = ∅) := by
  rw [Bool.eq_iff_iff, isEmpty_iff, decide_eq_true_eq, ← stands.indices,
    Finset.eq_empty_iff_forall_notMem]
  simp [mem_indices]

theorem StandsFor.bit_eq (stands : origin.StandsFor s b) {i : Nat} (inside : i < b.size) :
    b.bit i = decide (i ∈ s) := by
  rw [Bool.eq_iff_iff, decide_eq_true_eq, ← stands.indices, mem_indices]
  simp [inside]

namespace Access

/-- An index that is out of range is refused before anything is changed. -/
theorem onBitmap_refused (access : Access) {i : Nat} (named : access.index? = some i)
    (outside : b.size ≤ i) : access.onBitmap b = (.error ⟨i⟩, b) := by
  have refused : ¬ i < b.size := Nat.not_lt.mpr outside
  cases access with
  | insert index | erase index =>
    obtain rfl : index = i := Option.some.inj named
    simp only [onBitmap, step, perform, changed, sweep, if_neg refused]
    rfl
  | contains index =>
    obtain rfl : index = i := Option.some.inj named
    simp only [onBitmap, step, perform, Bitmap.contains, if_neg refused]
    rfl
  | isEmpty => contradiction

theorem onBitmap_insert {i : Nat} (inside : i < b.size) :
    (insert i).onBitmap b = (.ok none, b.raise i) := by
  simp only [onBitmap, step, perform, changed, sweep, if_pos inside]
  rfl

theorem onBitmap_erase {i : Nat} (inside : i < b.size) :
    (erase i).onBitmap b = (.ok none, b.lower i) := by
  simp only [onBitmap, step, perform, changed, sweep, if_pos inside]
  rfl

theorem onBitmap_contains {i : Nat} (inside : i < b.size) :
    (contains i).onBitmap b = (.ok (b.bit i), b) := by
  simp only [onBitmap, step, perform, Bitmap.contains, if_pos inside]
  rfl

theorem onSet_refused (access : Access) {size i : Nat} (named : access.index? = some i)
    (outside : size ≤ i) (s : Finset Nat) : access.onSet size s = (.error ⟨i⟩, s) := by
  have refused : ¬ i < size := Nat.not_lt.mpr outside
  cases access with
  | insert index | erase index | contains index =>
    obtain rfl : index = i := Option.some.inj named
    simp only [onSet, if_neg refused]
  | isEmpty => contradiction

/-- One use of a bitmap and of the set that it stands for. -/
theorem onBitmap_standsFor (stands : origin.StandsFor s b) (access : Access) :
    (access.onBitmap b).1 = (access.onSet origin.size s).1 ∧
    origin.StandsFor (access.onSet origin.size s).2 (access.onBitmap b).2 := by
  by_cases refused : ∃ i, access.index? = some i ∧ b.size ≤ i
  · obtain ⟨i, named, outside⟩ := refused
    rw [onBitmap_refused access named outside, onSet_refused access named (stands.size ▸ outside)]
    exact ⟨rfl, stands⟩
  · have inside : ∀ i, access.index? = some i → i < b.size := by
      intro i named
      exact Nat.lt_of_not_le fun outside => refused ⟨i, named, outside⟩
    cases access with
    | insert i =>
      have bound := inside i rfl
      rw [onBitmap_insert bound, onSet, if_pos (stands.size ▸ bound)]
      exact ⟨rfl, stands.raise bound⟩
    | erase i =>
      have bound := inside i rfl
      rw [onBitmap_erase bound, onSet, if_pos (stands.size ▸ bound)]
      exact ⟨rfl, stands.lower bound⟩
    | contains i =>
      have bound := inside i rfl
      rw [onBitmap_contains bound, onSet, if_pos (stands.size ▸ bound), stands.bit_eq bound]
      exact ⟨rfl, stands⟩
    | isEmpty =>
      have empty : isEmpty.onBitmap b = (.ok b.isEmpty, b) := rfl
      rw [empty, stands.isEmpty_eq]
      exact ⟨rfl, stands⟩

theorem run_standsFor (accesses : List Access) (stands : origin.StandsFor s b) :
    (run onBitmap accesses b).1 = (run (onSet origin.size) accesses s).1 ∧
    origin.StandsFor (run (onSet origin.size) accesses s).2 (run onBitmap accesses b).2 := by
  induction accesses generalizing s b with
  | nil => exact ⟨rfl, stands⟩
  | cons access accesses ih =>
    obtain ⟨reply, next⟩ := onBitmap_standsFor stands access
    obtain ⟨replies, last⟩ := ih next
    refine ⟨?_, last⟩
    simp only [run, reply, replies]

end Access

section Allocation

variable {bits : UInt64} {flags : AllocationFlags} {log : Log}

theorem allocate_fresh (allocated : ((allocate bits flags).run log).1 = some b) : b = fresh bits flags := by
  by_cases granted : Memory.Granted (8 * storageFor bits)
  · simp only [allocate, granted, not_true_eq_false, if_false] at allocated
    exact (Option.some.inj allocated).symm
  · simp only [allocate, granted, not_false_eq_true, if_true] at allocated
    contradiction

/-- Either way of allocating gives a new bitmap, if it gives one. -/
theorem fresh_of_allocated
    (allocated : ((allocate bits flags).run log).1 = some b ∨
      ((allocateClear bits flags).run log).1 = some b) :
    b.size = bits.toNat ∧ b.words.size = max 1 ((bits.toNat + 63) / 64) := by
  have storage : storageFor bits = max 1 ((bits.toNat + 63) / 64) := by
    rw [storageFor, toNat_wordsFor]
  rcases allocated with allocated | allocated
  · rw [allocate_fresh allocated]
    exact ⟨rfl, Array.size_replicate.trans storage⟩
  · rw [allocate_fresh allocated]
    exact ⟨rfl, Array.size_replicate.trans storage⟩

end Allocation

/-- Every run of uses of a new bitmap is one of the set of its indices: it gets the same replies and leaves
the set in the bits. The shape and the padding stay as they were allocated. An index that is out of range
is refused and changes nothing; any other has its word. -/
theorem Access.run_onBitmap {bits : UInt64} {flags : AllocationFlags} {log : Log} {b : Bitmap}
    (allocated : ((allocate bits flags).run log).1 = some b ∨
      ((allocateClear bits flags).run log).1 = some b)
    (accesses : List Access) :
    let run := Access.run onBitmap accesses b
    let expected := Access.run (onSet bits.toNat) accesses b.indices
    run.1 = expected.1 ∧ run.2.indices = expected.2 ∧
    run.2.size = bits.toNat ∧ run.2.words.size = max 1 ((bits.toNat + 63) / 64) ∧
    (∀ i, bits.toNat ≤ i → i < run.2.storageBits → run.2.bit i = b.bit i) ∧
    (∀ access i, index? access = some i → bits.toNat ≤ i →
      onBitmap access run.2 = (.error ⟨i⟩, run.2)) ∧
    (∀ i < bits.toNat, i / 64 < run.2.words.size) := by
  intro run expected
  obtain ⟨size, words⟩ := fresh_of_allocated allocated
  obtain ⟨replies, last⟩ := run_standsFor accesses b.standsFor_self
  rw [size] at replies last
  have lastSize : run.2.size = bits.toNat := last.size.trans size
  refine ⟨replies, last.indices, lastSize, last.words.trans words, ?_, ?_, ?_⟩
  · intro i outside _
    exact last.padding i (size ▸ outside)
  · intro access i named outside
    exact onBitmap_refused access named (lastSize ▸ outside)
  · intro i inside
    exact run.2.word_stored i (lastSize ▸ inside)

/-- Two words of poison, of which the second has six indices. Index 70 is padding. -/
theorem Access.run_onBitmap_poisoned :
    let b := fresh 70 .empty
    let accesses : List Access :=
      [.contains 64, .insert 64, .contains 64, .erase 65, .contains 65, .contains 1, .insert 70, .isEmpty]
    let run := Access.run onBitmap accesses b
    ((allocate 70 .empty).run {}).1 = some b ∧
    run.1 = [.ok false, .ok none, .ok true, .ok none, .ok false, .ok true, .error ⟨70⟩, .ok false] ∧
    run.2.size = 70 ∧ run.2.words.size = 2 ∧ run.2.bit 70 = b.bit 70 := by
  intro b accesses run
  have allocated : ((allocate 70 .empty).run {}).1 = some b := rfl
  obtain ⟨replies, -, size, words, padding, -, -⟩ := run_onBitmap (.inl allocated) accesses
  refine ⟨allocated, replies.trans ?_, size, words, padding 70 (by decide) ?_⟩
  · decide +kernel
  · rw [storageBits, words]
    decide

end KernelAbi.Bitmap
