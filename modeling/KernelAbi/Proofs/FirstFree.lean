import KernelAbi.Proofs.BitmapSet
import Mathlib.Data.Finset.Disjoint
import Mathlib.Data.List.Find

/-! The first free index. The search goes by words, and still finds what a search bit by bit would find:
padding neither hides an index nor passes for one. A bitmap from which indices are taken and to which they
are given back therefore never hands out one that is in use, and always the lowest that is not. -/
namespace KernelAbi.Bitmap

/-- The number of set bits below the lowest clear one. -/
def trailingOnes (word : BitVec 64) : Nat := (~~~word).ctz.toNat

/-- A search for a clear bit that reads each word once. -/
def wordScan (size base : Nat) : List (BitVec 64) → Option Nat
  | [] => none
  | word :: words =>
    if word ≠ BitVec.allOnes 64 ∧ base + trailingOnes word < size then some (base + trailingOnes word)
    else wordScan size (base + 64) words

/-- The bit at a position in words that follow one another. -/
def bitOf (words : List (BitVec 64)) (i : Nat) : Bool := (words.getD (i / 64) 0).getLsbD (i % 64)

section Word

variable {word : BitVec 64}

theorem lowestClear?_eq_some_iff {k : Nat} : lowestClear? word = some k ↔
    k < 64 ∧ word.getLsbD k = false ∧ ∀ j < k, word.getLsbD j = true := by
  rw [lowestClear?, List.find?_range_eq_some, List.mem_range]
  simp only [Bool.not_eq_true', Bool.not_not]
  exact and_left_comm

theorem lowestClear?_allOnes : lowestClear? (BitVec.allOnes 64) = none := by
  rw [lowestClear?, List.find?_range_eq_none]
  intro i inside
  rw [Bool.not_not, BitVec.getLsbD_allOnes, decide_eq_true inside]

/-- In a word that is not full the lowest clear bit stands on its trailing ones. -/
theorem lowestClear?_notFull (notFull : word ≠ BitVec.allOnes 64) :
    lowestClear? word = some (trailingOnes word) := by
  have complement : ~~~word ≠ 0#64 := by
    intro zero
    exact notFull ((BitVec.not_not (b := word)).symm.trans (congrArg (~~~·) zero))
  have clear : (~~~word).getLsbD (trailingOnes word) = true := BitVec.getLsbD_true_ctz_of_ne_zero complement
  have inside : trailingOnes word < 64 := BitVec.lt_of_getLsbD clear
  rw [lowestClear?_eq_some_iff]
  refine ⟨inside, ?_, ?_⟩
  · simpa [BitVec.getLsbD_not, inside] using clear
  · intro j below
    have set : (~~~word).getLsbD j = false := BitVec.getLsbD_false_of_lt_ctz below
    simpa [BitVec.getLsbD_not, Nat.lt_trans below inside] using set

end Word

section Scan

variable (size base : Nat) (word : BitVec 64) (words : List (BitVec 64))

theorem scan_eq_wordScan : scan size base words = wordScan size base words := by
  induction words generalizing base with
  | nil => rfl
  | cons word words ih =>
    rw [scan, wordScan, ← ih]
    by_cases full : word = BitVec.allOnes 64
    · rw [full, lowestClear?_allOnes, if_neg (fun both => both.1 rfl)]
    · simp only [lowestClear?_notFull full, ne_eq, full, not_false_eq_true, true_and]

theorem bitOf_cons_low {i : Nat} (low : i < 64) : bitOf (word :: words) i = word.getLsbD i := by
  rw [bitOf, Nat.div_eq_of_lt low, Nat.mod_eq_of_lt low, List.getD_cons_zero]

theorem bitOf_cons_high (i : Nat) : bitOf (word :: words) (64 + i) = bitOf words i := by
  rw [bitOf, Nat.add_div_left i (by decide), Nat.add_mod_left, List.getD_cons_succ, bitOf]

/-- Within one word: past its lowest clear bit there is nothing to be found below the size that is not
found at it. -/
theorem find?_word :
    ((List.range 64).find? fun k => decide (base + k < size) && !word.getLsbD k) =
      (lowestClear? word).filter (base + · < size) := by
  apply Option.ext
  intro k
  rw [List.find?_range_eq_some, List.mem_range, Option.filter_eq_some_iff, lowestClear?_eq_some_iff]
  simp only [Bool.and_eq_true, decide_eq_true_eq, Bool.not_eq_true', Bool.and_eq_false_imp, Bool.not_eq_false']
  constructor
  · rintro ⟨⟨below, clear⟩, inside, set⟩
    exact ⟨⟨inside, clear, fun j before => set j before (by omega)⟩, below⟩
  · rintro ⟨⟨inside, clear, set⟩, below⟩
    exact ⟨⟨below, clear⟩, inside, fun j before _ => set j before⟩

/-- Through all words: a clear bit that is not below the size ends nothing. -/
theorem scan_eq_find? :
    scan size base words =
      ((List.range (64 * words.length)).find? fun k => decide (base + k < size) && !bitOf words k).map
        (base + ·) := by
  induction words generalizing base with
  | nil => rfl
  | cons word words ih =>
    have low : ((List.range 64).find? fun k => decide (base + k < size) && !bitOf (word :: words) k) =
        (lowestClear? word).filter (base + · < size) := by
      rw [← find?_word]
      apply List.find?_congr
      intro k inside
      rw [bitOf_cons_low word words (List.mem_range.mp inside)]
    have high : (((List.range (64 * words.length)).map (64 + ·)).find? fun k =>
        decide (base + k < size) && !bitOf (word :: words) k).map (base + ·) = scan size (base + 64) words := by
      rw [ih, List.find?_map, Option.map_map]
      simp only [Function.comp_def, bitOf_cons_high, Nat.add_assoc]
    rw [List.length_cons, Nat.mul_add_one, Nat.add_comm, List.range_add, List.find?_append, Option.map_or, low,
      high, scan]
    cases lowestClear? word with
    | none => rfl
    | some k => by_cases below : base + k < size <;> simp [below, Option.filter]

end Scan

section Search

variable (b : Bitmap)

/-- The search by words is the search of the indices one by one. -/
theorem firstFree?_eq_find? : b.firstFree? = (List.range b.size).find? fun i => !b.bit i := by
  have stored : 64 * b.words.toList.length = b.size + (64 * b.words.size - b.size) := by
    have := b.size_le
    rw [Array.length_toList]
    omega
  have bits (k : Nat) : bitOf b.words.toList k = b.bit k := by
    rw [bitOf, bit, List.getD_eq_getElem?_getD, Array.getElem?_toList, Array.getD_eq_getD_getElem?]
  have indices : ((List.range b.size).find? fun k => decide (k < b.size) && !b.bit k) =
      (List.range b.size).find? fun i => !b.bit i := by
    apply List.find?_congr
    intro i inside
    rw [decide_eq_true (List.mem_range.mp inside), Bool.true_and]
  have padding : (((List.range (64 * b.words.size - b.size)).map (b.size + ·)).find? fun k =>
      decide (k < b.size) && !b.bit k) = none := by
    rw [List.find?_eq_none]
    intro k outside
    obtain ⟨past, -, rfl⟩ := List.mem_map.mp outside
    rw [decide_eq_false (by omega), Bool.false_and]
    decide
  simp only [firstFree?, scan_eq_find?, Nat.zero_add, Option.map_id', bits]
  rw [stored, List.range_add, List.find?_append, indices, padding, Option.or_none]

variable {b} {i : Nat}

theorem firstFree?_eq_some_iff :
    b.firstFree? = some i ↔ i < b.size ∧ b.bit i = false ∧ ∀ j < i, b.bit j = true := by
  rw [firstFree?_eq_find?, List.find?_range_eq_some, List.mem_range]
  simp only [Bool.not_eq_true', Bool.not_not]
  exact and_left_comm

theorem firstFree?_eq_none_iff : b.firstFree? = none ↔ ∀ i < b.size, b.bit i = true := by
  rw [firstFree?_eq_find?, List.find?_range_eq_none]
  simp only [Bool.not_not]

theorem contains_of_lt (inside : i < b.size) : b.contains i = .ok (b.bit i) := if_pos inside

theorem take_of_some (found : b.firstFree? = some i) : b.take = (some i, b.raise i) := by
  rw [take, found]

theorem take_of_none (full : b.firstFree? = none) : b.take = (none, b) := by
  rw [take, full]

end Search

/-- What a bitmap that hands out its indices is asked for. -/
inductive Demand where
  | take
  | giveBack (index : Nat)
deriving DecidableEq, Repr

/-- A demand and the index that was handed out on it. -/
structure Handling where
  demand : Demand
  handed : Option Nat
deriving DecidableEq, Repr

namespace Handling

/-- The indices in use after a handling, by what was handed out and given back alone. -/
def settle (inUse : Finset Nat) : Handling → Finset Nat
  | ⟨.take, some i⟩ => inUse ∪ {i}
  | ⟨.take, none⟩ => inUse
  | ⟨.giveBack i, _⟩ => inUse \ {i}

/-- The lowest index that is not in use is handed out, and none only when all are in use. -/
def Fair (size : Nat) (inUse : Finset Nat) : Handling → Prop
  | ⟨.take, some i⟩ => i < size ∧ i ∉ inUse ∧ ∀ j < i, j ∈ inUse
  | ⟨.take, none⟩ => ∀ j < size, j ∈ inUse
  | ⟨.giveBack _, handed⟩ => handed = none

end Handling

namespace Demand

def serve (b : Bitmap) : Demand → Option Nat × Bitmap
  | .take => b.take
  | .giveBack i => (none, ((Access.erase i).onBitmap b).2)

def run : List Demand → Bitmap → List Handling × Bitmap
  | [], b => ([], b)
  | demand :: demands, b =>
    let (handed, b) := demand.serve b
    let (handlings, b) := run demands b
    (⟨demand, handed⟩ :: handlings, b)

theorem serve_standsFor {origin b : Bitmap} {inUse : Finset Nat} (stands : origin.StandsFor inUse b)
    (demand : Demand) :
    let handling : Handling := ⟨demand, (demand.serve b).1⟩
    handling.Fair origin.size inUse ∧ origin.StandsFor (handling.settle inUse) (demand.serve b).2 := by
  have used {i : Nat} (inside : i < b.size) : b.bit i = true ↔ i ∈ inUse := by
    rw [stands.bit_eq inside, decide_eq_true_eq]
  cases demand with
  | take =>
    cases found : b.firstFree? with
    | none =>
      have full := firstFree?_eq_none_iff.mp found
      simp only [serve, take_of_none found]
      refine ⟨fun j inside => ?_, stands⟩
      have bound : j < b.size := stands.size ▸ inside
      exact (used bound).mp (full j bound)
    | some i =>
      obtain ⟨inside, clear, set⟩ := firstFree?_eq_some_iff.mp found
      simp only [serve, take_of_some found]
      refine ⟨⟨stands.size ▸ inside, ?_, fun j before => ?_⟩, stands.raise inside⟩
      · rw [← used inside, clear]
        decide
      · exact (used (Nat.lt_trans before inside)).mp (set j before)
  | giveBack i =>
    refine ⟨rfl, ?_⟩
    by_cases inside : i < b.size
    · simp only [serve, Access.onBitmap_erase inside]
      exact stands.lower inside
    · -- An index that is out of range was never in use.
      have outside : b.size ≤ i := Nat.le_of_not_lt inside
      have unused : i ∉ inUse := by
        rw [← stands.indices, mem_indices]
        exact fun both => inside both.1
      simp only [serve, Access.onBitmap_refused (.erase i) rfl outside, Handling.settle,
        Finset.sdiff_eq_self_of_disjoint (Finset.disjoint_singleton_right.mpr unused)]
      exact stands

theorem run_standsFor {origin b : Bitmap} {inUse : Finset Nat} (stands : origin.StandsFor inUse b)
    (demands : List Demand) :
    (∀ earlier handling later, (run demands b).1 = earlier ++ handling :: later →
      handling.Fair origin.size (earlier.foldl Handling.settle inUse)) ∧
    origin.StandsFor ((run demands b).1.foldl Handling.settle inUse) (run demands b).2 := by
  induction demands generalizing b inUse with
  | nil =>
    refine ⟨fun earlier handling later split => ?_, stands⟩
    exact absurd split.symm (List.append_ne_nil_of_right_ne_nil earlier (List.cons_ne_nil handling later))
  | cons demand demands ih =>
    obtain ⟨fair, next⟩ := serve_standsFor stands demand
    obtain ⟨rest, last⟩ := ih next
    refine ⟨fun earlier handling later split => ?_, last⟩
    cases earlier with
    | nil =>
      obtain ⟨rfl, -⟩ := List.cons.inj split
      exact fair
    | cons first earlier =>
      obtain ⟨rfl, remaining⟩ := List.cons.inj split
      exact rest earlier handling later remaining

theorem run_demands (demands : List Demand) (b : Bitmap) : (run demands b).1.map (·.demand) = demands := by
  induction demands generalizing b with
  | nil => rfl
  | cons demand demands ih => exact congrArg (demand :: ·) (ih _)

end Demand

/-- Whatever a bitmap holds, padding included, the search by words finds the lowest index whose bit is
clear, and finds none only when every index is set. So in every run of taking and giving back, whatever is
handed out is the lowest index that is not in use at that time, and a demand fails only when all are. -/
theorem firstFree?_lowest (b : Bitmap) :
    b.firstFree? = wordScan b.size 0 b.words.toList ∧
    (∀ i, b.firstFree? = some i ↔
      i < b.size ∧ b.contains i = .ok false ∧ ∀ j < i, b.contains j = .ok true) ∧
    (b.firstFree? = none ↔ ∀ i < b.size, b.contains i = .ok true) ∧
    ∀ demands : List Demand,
      let run := Demand.run demands b
      run.1.map (·.demand) = demands ∧
      (∀ earlier handling later, run.1 = earlier ++ handling :: later →
        handling.Fair b.size (earlier.foldl Handling.settle b.indices)) ∧
      run.2.indices = run.1.foldl Handling.settle b.indices := by
  have holds {i : Nat} (inside : i < b.size) (set : Bool) : b.contains i = .ok set ↔ b.bit i = set := by
    rw [contains_of_lt inside, Except.ok.injEq]
  refine ⟨scan_eq_wordScan b.size 0 b.words.toList, fun i => ?_, ?_, fun demands => ?_⟩
  · rw [firstFree?_eq_some_iff]
    refine and_congr_right fun inside => and_congr (holds inside false).symm ?_
    exact forall₂_congr fun j before => (holds (Nat.lt_trans before inside) true).symm
  · rw [firstFree?_eq_none_iff]
    exact forall₂_congr fun i inside => (holds inside true).symm
  · obtain ⟨fair, last⟩ := Demand.run_standsFor b.standsFor_self demands
    exact ⟨Demand.run_demands demands b, fair, last.indices⟩

/-- Of this word's bits only the first is an index; the clear ones are padding. -/
example : (Bitmap.mk 1 #[1] (by decide)).firstFree? = none := by decide

end KernelAbi.Bitmap
