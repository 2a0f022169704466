import KernelAbi.Log.Line
import KernelAbi.Memory.Request

/-! Bitmaps in words of 64 bits. A bitmap stands for the set of those indices below its size whose bit
is set; the bits between its size and the end of its last word are padding and belong to no index. -/
namespace KernelAbi

/-- The words that hold `bits` bits. The sum of quotient and carry cannot wrap. -/
def wordsFor (bits : UInt64) : UInt64 := bits / 64 + if bits % 64 = 0 then 0 else 1

theorem toNat_wordsFor (bits : UInt64) : (wordsFor bits).toNat = (bits.toNat + 63) / 64 := by
  have bound := bits.toNat_lt
  have carry : bits % 64 = 0 ↔ bits.toNat % 64 = 0 := by
    rw [← UInt64.toNat_inj, UInt64.toNat_mod]; rfl
  unfold wordsFor
  by_cases exact : bits % 64 = 0
  · have := carry.mp exact
    simp only [exact, if_pos, UInt64.toNat_add, UInt64.toNat_div, UInt64.reduceToNat]
    omega
  · have := mt carry.mpr exact
    simp only [exact, if_neg, not_false_eq_true, UInt64.toNat_add, UInt64.toNat_div, UInt64.reduceToNat]
    omega

structure Bitmap where
  size : Nat
  words : Array (BitVec 64)
  size_le : size ≤ 64 * words.size
deriving DecidableEq, Repr

namespace Bitmap

/-- An index that is not below the bitmap's size. -/
structure OutOfRange where
  index : Nat
deriving DecidableEq, Repr

def OutOfRange.message (_ : OutOfRange) : String := "assertion failed: index < self.nbits"

def storageBits (b : Bitmap) : Nat := 64 * b.words.size

/-- The stored bit at any position, padding included. -/
def bit (b : Bitmap) (i : Nat) : Bool := (b.words.getD (i / 64) 0).getLsbD (i % 64)

/-- Changes the word that holds position `i`. -/
def modifyWord (b : Bitmap) (i : Nat) (change : BitVec 64 → BitVec 64) : Bitmap where
  size := b.size
  words := b.words.modify (i / 64) change
  size_le := by simpa using b.size_le

def raise (b : Bitmap) (i : Nat) : Bitmap := b.modifyWord i (· ||| BitVec.twoPow 64 (i % 64))

def lower (b : Bitmap) (i : Nat) : Bitmap := b.modifyWord i (· &&& ~~~BitVec.twoPow 64 (i % 64))

def insert (b : Bitmap) (i : Nat) : Except OutOfRange Bitmap :=
  if i < b.size then .ok (b.raise i) else .error ⟨i⟩

def erase (b : Bitmap) (i : Nat) : Except OutOfRange Bitmap :=
  if i < b.size then .ok (b.lower i) else .error ⟨i⟩

def contains (b : Bitmap) (i : Nat) : Except OutOfRange Bool :=
  if i < b.size then .ok (b.bit i) else .error ⟨i⟩

def isEmpty (b : Bitmap) : Bool := Nat.all b.size fun i _ => !b.bit i

/-- The lowest clear bit of a word. -/
def lowestClear? (word : BitVec 64) : Option Nat := (List.range 64).find? fun k => !word.getLsbD k

/-- The lowest clear bit below `size` in `words`, whose first bit is at position `base`. -/
def scan (size : Nat) (base : Nat) : List (BitVec 64) → Option Nat
  | [] => none
  | word :: words =>
    match lowestClear? word with
    | some k => if base + k < size then some (base + k) else scan size (base + 64) words
    | none => scan size (base + 64) words

def firstFree? (b : Bitmap) : Option Nat := scan b.size 0 b.words.toList

/-- Hands out the first free index, if there is one. -/
def take (b : Bitmap) : Option Nat × Bitmap :=
  match b.firstFree? with
  | none => (none, b)
  | some i => (some i, b.raise i)

/-- Changes `count` indices from `first` on, up to the first that is out of range. -/
def sweep (change : Bitmap → Nat → Bitmap) (b : Bitmap) (first : Nat) :
    Nat → Except OutOfRange Unit × Bitmap
  | 0 => (.ok (), b)
  | count + 1 =>
    if first < b.size then sweep change (change b first) (first + 1) count else (.error ⟨first⟩, b)

/-- Stretches of equal words, each with its length. -/
def runs (b : Bitmap) : List (Nat × BitVec 64) :=
  (b.words.toList.splitBy (· == ·)).filterMap fun run => run.head?.map (run.length, ·)

/-- A bitmap always has a word, also for no bits at all. -/
def storageFor (bits : UInt64) : Nat := max 1 (wordsFor bits).toNat

def fresh (bits : UInt64) (flags : AllocationFlags) : Bitmap where
  size := bits.toNat
  words := Array.replicate (storageFor bits) (Memory.freshWord flags)
  size_le := by
    have := toNat_wordsFor bits
    simp only [Array.size_replicate, storageFor]
    omega

def allocate (bits : UInt64) (flags : AllocationFlags) : StateM Log (Option Bitmap) := do
  if ¬ Memory.Granted (8 * storageFor bits) then
    modify (·.print ⟨.warning, "(Compat) bitmap_alloc: sem memoria, nbits=", some bits⟩)
    return none
  modify (·.print ⟨.trace, "(Compat) bitmap_alloc local, palavras=", some (.ofNat (storageFor bits))⟩)
  return some (fresh bits flags)

def allocateClear (bits : UInt64) (flags : AllocationFlags) : StateM Log (Option Bitmap) :=
  allocate bits (flags.insert Allocation.zeroed)

end Bitmap
end KernelAbi
