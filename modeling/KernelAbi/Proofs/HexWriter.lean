import KernelAbi.Proofs.HexNumeral
import KernelAbi.Proofs.LineText
import Mathlib.Algebra.Group.Nat.Defs

/-! Numerals of words, and a writer for them. The shape of a numeral is given without a word on how one is
made; every string of that shape is the numeral of the number that it denotes, and of no other. The writer
counts the digits by the leading zeros of the word and puts them into a buffer that just holds the longest
numeral, each write, shift and difference checked. None fails, and what stands in the buffer is the
numeral. -/
namespace KernelAbi.Hex

def IsDigit (c : Char) : Prop := c.isDigit ∨ 'a' ≤ c ∧ c ≤ 'f'

instance (c : Char) : Decidable (IsDigit c) := inferInstanceAs (Decidable (c.isDigit ∨ 'a' ≤ c ∧ c ≤ 'f'))

/-- The digits of a numeral in its shortest form. A zero leads only alone. -/
structure Shortest (run : List Char) : Prop where
  nonempty : run ≠ []
  atMost : run.length ≤ 16
  lower : ∀ c ∈ run, IsDigit c
  leading : run.head? = some '0' → run = ['0']

section Shape

variable {c : Char} {run : List Char} {n : Nat}

theorem isDigit_digitChar : ∀ n < 16, IsDigit n.digitChar := by decide

theorem exists_digitChar (lower : IsDigit c) : ∃ n < 16, c = n.digitChar := by
  have all : ∀ k < 128, IsDigit (Char.ofNat k) → ∃ n < 16, Char.ofNat k = n.digitChar := by decide
  have small : c.toNat < 128 := by
    rcases lower with digit | ⟨-, atMost⟩
    · exact Nat.lt_of_le_of_lt (Char.isDigit_iff_toNat.mp digit).2 (by decide)
    · exact Nat.lt_of_le_of_lt (UInt32.le_iff_toNat_le.mp atMost) (by decide)
  have found := all c.toNat small
  rw [Char.ofNat_toNat] at found
  exact found lower

theorem digits_ne_nil (n : Nat) : digits n ≠ [] := List.ne_nil_of_length_pos Nat.length_toDigits_pos

theorem length_digits_le_iff {k : Nat} (positive : 0 < k) : (digits n).length ≤ k ↔ n < 16 ^ k :=
  Nat.length_toDigits_le_iff (by decide) positive

theorem head?_digits_ne (positive : 0 < n) : (digits n).head? ≠ some '0' := by
  induction n using Nat.strongRecOn with
  | ind n ih =>
    rw [digits_eq]
    split
    next single => simpa [Nat.digitChar_eq_zero] using Nat.ne_of_gt positive
    next longer =>
      rw [List.head?_append_of_ne_nil _ (digits_ne_nil _)]
      exact ih (n / 16) (by omega) (by omega)

theorem shortest_digits (word : UInt64) : Shortest (digits word.toNat) where
  nonempty := digits_ne_nil _
  atMost := (length_digits_le_iff (by decide)).mpr word.toNat_lt
  lower c member := by
    obtain ⟨k, bound, rfl⟩ := exists_of_mem_digits member
    exact isDigit_digitChar k bound
  leading zero := by
    rcases Nat.eq_zero_or_pos word.toNat with nothing | positive
    · rw [nothing]
      rfl
    · exact absurd zero (head?_digits_ne positive)

/-- Digits read onto a number go behind its own. -/
theorem digits_foldl (lower : ∀ c ∈ run, IsDigit c) (positive : 0 < n) :
    digits (run.foldl (fun value c => value * 16 + digitValue c) n) = digits n ++ run := by
  induction run generalizing n with
  | nil => simp
  | cons c run ih =>
    obtain ⟨first, others⟩ := List.forall_mem_cons.mp lower
    obtain ⟨k, bound, rfl⟩ := exists_digitChar first
    have joined : digits n ++ [k.digitChar] = digits (n * 16 + k) := by
      rw [Nat.mul_comm, ← Nat.toDigits_of_lt_base bound]
      exact Nat.toDigits_append_toDigits (by decide) positive bound
    rw [List.foldl_cons, digitValue_digitChar k bound, ih others (by omega), ← joined, List.append_assoc]
    rfl

theorem digits_value (shortest : Shortest run) : digits (value run) = run := by
  cases run with
  | nil => exact absurd rfl shortest.nonempty
  | cons c run =>
    obtain ⟨first, others⟩ := List.forall_mem_cons.mp shortest.lower
    obtain ⟨k, bound, rfl⟩ := exists_digitChar first
    rcases Nat.eq_zero_or_pos k with rfl | positive
    · rw [shortest.leading rfl]
      rfl
    · have one : digits k = [k.digitChar] := Nat.toDigits_of_lt_base bound
      rw [value, List.foldl_cons, digitValue_digitChar k bound, Nat.zero_mul, Nat.zero_add,
        digits_foldl others positive, one]
      rfl

theorem value_lt (shortest : Shortest run) : value run < UInt64.size := by
  have length := shortest.atMost
  rw [← digits_value shortest] at length
  exact (length_digits_le_iff (by decide)).mp length

/-- The texts of the shape that denote a number are its numeral. -/
theorem eq_numeral_iff (text : String) (word : UInt64) : text = Log.numeral word ↔
    ∃ run, text.toList = '0' :: 'x' :: run ∧ Shortest run ∧ value run = word.toNat := by
  constructor
  · rintro rfl
    exact ⟨_, toList_numeral word.toNat, shortest_digits word, value_digits word.toNat⟩
  · rintro ⟨run, split, shortest, denotes⟩
    apply String.toList_inj.mp
    rw [split, Log.numeral, toList_numeral, ← denotes, digits_value shortest]

end Shape

/-- What goes wrong where a buffer or a word ends. -/
inductive Fault where
  /-- The byte is not one of the buffer's. -/
  | outside (index : Nat)
  /-- A difference below zero, or a shift by as many places as there are. -/
  | overflow
deriving DecidableEq, Repr

namespace Writer

/-- The mark and sixteen digits. -/
def capacity : Nat := 18

def minus (a b : Nat) : Except Fault Nat := if b ≤ a then .ok (a - b) else .error .overflow

def shiftRight (word : UInt64) (places : Nat) : Except Fault UInt64 :=
  if places < 64 then .ok (word >>> .ofNat places) else .error .overflow

def put (out : Buffer capacity) (index : Nat) (byte : UInt8) : Except Fault (Buffer capacity) :=
  if index < capacity then .ok (out.set index byte) else .error (.outside index)

def front (out : Buffer capacity) (count : Nat) : Except Fault Bytes :=
  if count ≤ capacity then .ok (out.bytes.take count) else .error (.outside count)

/-- Four bits make a digit, and so does a rest of them. -/
def digitCount (word : UInt64) : Except Fault Nat :=
  if word = 0 then .ok 1 else (minus 64 word.toBitVec.clz.toNat).map fun bits => (bits + 3) / 4

def digitByte (nibble : UInt8) : UInt8 :=
  if nibble < 10 then '0'.toUInt8 + nibble else 'a'.toUInt8 + nibble - 10

/-- Writes the digit at `index` of `count`, counted from the weightiest. -/
def putDigit (word : UInt64) (count : Nat) (out : Buffer capacity) (index : Nat) :
    Except Fault (Buffer capacity) := do
  let last ← minus count 1
  let behind ← minus last index
  let shifted ← shiftRight word (behind * 4)
  put out (2 + index) (digitByte (shifted &&& 0xF).toUInt8)

/-- The bytes of the numeral, and the buffer that they are the front of. -/
def write (word : UInt64) (out : Buffer capacity) : Except Fault (Bytes × Buffer capacity) := do
  let out ← put out 0 '0'.toUInt8
  let out ← put out 1 'x'.toUInt8
  let count ← digitCount word
  let out ← (List.range count).foldlM (putDigit word count) out
  let bytes ← front out (2 + count)
  return (bytes, out)

/-- The mark and a run of digits in bytes. -/
def encoded (run : List Char) : Bytes := '0'.toUInt8 :: 'x'.toUInt8 :: run.map Char.toUInt8

theorem encoded_concat (run : List Char) (c : Char) : encoded (run ++ [c]) = encoded run ++ [c.toUInt8] := by
  simp [encoded]

theorem length_encoded (run : List Char) : (encoded run).length = 2 + run.length := by
  rw [encoded, List.length_cons, List.length_cons, List.length_map]
  omega

theorem minus_ok {a b : Nat} (le : b ≤ a) : minus a b = .ok (a - b) := if_pos le

theorem shiftRight_ok (word : UInt64) {places : Nat} (within : places < 64) :
    shiftRight word places = .ok (word >>> .ofNat places) := if_pos within

section Digits

variable (word : UInt64)

/-- The number of digits that a word has. -/
abbrev width : Nat := (digits word.toNat).length

theorem width_le : width word ≤ 16 := (shortest_digits word).atMost

theorem width_pos : 0 < width word := Nat.length_toDigits_pos

theorem length_encoded_le : (encoded (digits word.toNat)).length ≤ capacity := by
  rw [length_encoded]
  exact Nat.add_le_add_left (width_le word) 2

/-- The leading zeros tell between which powers of two the word lies, and the rounding up between which powers
of sixteen. -/
theorem digitCount_ok : digitCount word = .ok (width word) := by
  by_cases zero : word = 0
  · rw [zero]
    rfl
  · have nonzero : word.toBitVec ≠ 0#64 := fun none => zero (UInt64.toBitVec_inj.mp none)
    have atLeast : 2 ^ (63 - word.toBitVec.clz.toNat) ≤ word.toNat :=
      BitVec.two_pow_sub_clz_le_toNat_of_ne_zero (by decide) nonzero
    have below : word.toNat < 2 ^ (64 - word.toBitVec.clz.toNat) := BitVec.toNat_lt_two_pow_sub_clz
    have fewer : word.toBitVec.clz.toNat < 64 := BitVec.lt_def.mp (BitVec.clz_lt_iff_ne_zero.mpr nonzero)
    rw [digitCount, if_neg zero, minus_ok (Nat.le_of_lt fewer)]
    generalize word.toBitVec.clz.toNat = zeros at *
    have sixteen (k : Nat) : 16 ^ k = 2 ^ (4 * k) := (Nat.pow_mul (a := 2) (m := 4) (n := k)).symm
    have atMost : width word ≤ (64 - zeros + 3) / 4 := by
      rw [length_digits_le_iff (by omega), sixteen]
      exact Nat.lt_of_lt_of_le below (Nat.pow_le_pow_right (by decide) (by omega))
    have enough : ¬ width word ≤ (64 - zeros + 3) / 4 - 1 := by
      intro short
      have positive := width_pos word
      rw [length_digits_le_iff (by omega), sixteen] at short
      have reach : 2 ^ (4 * ((64 - zeros + 3) / 4 - 1)) ≤ 2 ^ (63 - zeros) :=
        Nat.pow_le_pow_right (by decide) (by omega)
      omega
    have exact : (64 - zeros + 3) / 4 = width word := by omega
    exact congrArg Except.ok exact

theorem getElem?_digits {n i : Nat} (inside : i < (digits n).length) :
    (digits n)[i]? = some (n / 16 ^ ((digits n).length - 1 - i) % 16).digitChar := by
  induction n using Nat.strongRecOn generalizing i with
  | ind n ih =>
    by_cases single : n < 16
    · rw [digits_eq, if_pos single] at inside ⊢
      obtain rfl : i = 0 := by simpa using inside
      simp [Nat.mod_eq_of_lt single]
    · rw [digits_eq, if_neg single, List.length_append, List.length_singleton] at inside ⊢
      rcases Nat.lt_or_ge i (digits (n / 16)).length with before | last
      · have power : (digits (n / 16)).length + 1 - 1 - i = (digits (n / 16)).length - 1 - i + 1 := by omega
        rw [List.getElem?_append_left before, ih _ (by omega) before, Nat.div_div_eq_div_mul, power,
          Nat.pow_succ']
      · obtain rfl : i = (digits (n / 16)).length := by omega
        simp

theorem digitByte_ofNat : ∀ k < 16, digitByte (.ofNat k) = k.digitChar.toUInt8 := by decide

theorem nibble_eq {places : Nat} (within : places < 64) :
    ((word >>> .ofNat places) &&& 0xF).toUInt8 = .ofNat (word.toNat / 2 ^ places % 16) := by
  have amount : (UInt64.ofNat places).toNat = places :=
    UInt64.toNat_ofNat_of_lt' (Nat.lt_trans within (by decide))
  have low (n : Nat) : n &&& 15 = n % 16 := Nat.and_two_pow_sub_one_eq_mod n 4
  apply UInt8.toNat.inj
  rw [UInt64.toNat_toUInt8, UInt64.toNat_and, UInt64.toNat_shiftRight, amount, Nat.mod_eq_of_lt within,
    Nat.shiftRight_eq_div_pow, UInt8.toNat_ofNat']
  exact congrArg (· % 256) (low _)

section Position

variable {word : UInt64} {index : Nat} (inside : index < width word)
include inside

theorem digit_within : (width word - 1 - index) * 4 < 64 := by
  have atMost := width_le word
  omega

/-- Shifting by four places for each digit behind it leaves a digit at the end of the word. -/
theorem digitByte_shifted :
    digitByte ((word >>> .ofNat ((width word - 1 - index) * 4)) &&& 0xF).toUInt8 =
      (digits word.toNat)[index].toUInt8 := by
  have stands := getElem?_digits inside
  rw [List.getElem?_eq_getElem inside, Option.some.injEq] at stands
  have sixteen (k : Nat) : 2 ^ (k * 4) = 16 ^ k := by
    rw [Nat.mul_comm, Nat.pow_mul]
  rw [nibble_eq word (digit_within inside), sixteen, stands, digitByte_ofNat _ (Nat.mod_lt _ (by decide))]

end Position

end Digits

section Writes

variable (word : UInt64) (out : Buffer capacity) {written : Bytes}

theorem overwrite_nil : out.overwrite [] = out := by
  simp [Buffer.overwrite]

/-- A byte right behind what was written so far joins it. -/
theorem put_overwrite (room : written.length < capacity) (byte : UInt8) :
    put (out.overwrite written) written.length byte = .ok (out.overwrite (written ++ [byte])) := by
  rw [put, if_pos room, out.overwrite_set_behind room]

theorem putDigit_overwrite {index : Nat} (inside : index < width word) (reached : written.length = 2 + index) :
    putDigit word (width word) (out.overwrite written) index =
      .ok (out.overwrite (written ++ [(digits word.toNat)[index].toUInt8])) := by
  have atMost := width_le word
  have last := minus_ok (width_pos word)
  have behind : minus (width word - 1) index = .ok (width word - 1 - index) := minus_ok (by omega)
  have shifted := shiftRight_ok word (digit_within inside)
  have room : written.length < capacity := by
    rw [reached, capacity]
    omega
  simp only [putDigit, last, behind, shifted, digitByte_shifted inside, ← reached, put_overwrite out room,
    bind, Except.bind]

/-- After so many turns as many digits stand behind the mark, and the rest of the buffer is as it was. -/
theorem putDigits_overwrite {turns : Nat} (inside : turns ≤ width word) :
    (List.range turns).foldlM (putDigit word (width word)) (out.overwrite (encoded [])) =
      .ok (out.overwrite (encoded ((digits word.toNat).take turns))) := by
  induction turns with
  | zero => rfl
  | succ turns ih =>
    have reached : (encoded ((digits word.toNat).take turns)).length = 2 + turns := by
      rw [length_encoded, List.length_take_of_le (Nat.le_of_succ_le inside)]
    have next := putDigit_overwrite word out inside reached
    rw [List.take_add_one, List.getElem?_eq_getElem inside, Option.toList_some, encoded_concat, ← next]
    simp only [List.range_succ, List.foldlM_append, ih (Nat.le_of_succ_le inside), List.foldlM_cons,
      List.foldlM_nil, bind_pure]
    rfl

theorem front_overwrite (fits : written.length ≤ capacity) :
    front (out.overwrite written) written.length = .ok written := by
  rw [front, if_pos fits, out.overwrite_bytes fits, List.take_left']
  rfl

theorem write_overwrite :
    write word out = .ok (encoded (digits word.toNat), out.overwrite (encoded (digits word.toNat))) := by
  have zero : put (out.overwrite []) 0 '0'.toUInt8 = .ok (out.overwrite ['0'.toUInt8]) :=
    put_overwrite out (by decide) '0'.toUInt8
  have mark : put (out.overwrite ['0'.toUInt8]) 1 'x'.toUInt8 = .ok (out.overwrite (encoded [])) :=
    put_overwrite out (by decide) 'x'.toUInt8
  have turns := putDigits_overwrite word out (Nat.le_refl _)
  have slice := front_overwrite out (length_encoded_le word)
  rw [overwrite_nil] at zero
  rw [List.take_length] at turns
  rw [length_encoded] at slice
  simp only [write, zero, mark, digitCount_ok, turns, slice, bind, Except.bind, pure, Except.pure]

end Writes

end Writer

/-- Digits and letters are a byte each. -/
theorem ofText_ofList {text : List Char} (ascii : ∀ c ∈ text, c.val ≤ 127) :
    Bytes.ofText (.ofList text) = text.map Char.toUInt8 := by
  rw [Bytes.ofText_eq, String.toByteArray_ofList, List.utf8Encode, List.data_toByteArray]
  induction text with
  | nil => rfl
  | cons c text ih =>
    obtain ⟨first, others⟩ := List.forall_mem_cons.mp ascii
    have one : String.utf8EncodeChar c = [c.toUInt8] :=
      String.utf8EncodeChar_eq_singleton (Char.utf8Size_eq_one_iff.mpr first)
    rw [List.flatMap_cons, one, List.map_cons, ← ih others]
    rfl

theorem ofText_numeral (word : UInt64) :
    Bytes.ofText (Log.numeral word) = Writer.encoded (digits word.toNat) := by
  have text : Log.numeral word = .ofList ('0' :: 'x' :: digits word.toNat) := by
    apply String.toList_inj.mp
    rw [Log.numeral, toList_numeral, String.toList_ofList]
  have single : ∀ k < 16, k.digitChar.val ≤ 127 := by decide
  rw [text, ofText_ofList]
  · rfl
  · intro c member
    rcases List.mem_cons.mp member with rfl | member
    · decide
    rcases List.mem_cons.mp member with rfl | member
    · decide
    · obtain ⟨k, bound, rfl⟩ := exists_of_mem_digits member
      exact single k bound

/-- A text is the numeral of a word exactly if it is the mark and a shortest run of digits that denotes the
word. Every shortest run denotes some word, and different words have different numerals. The writer gives the
bytes of the numeral for every word and every buffer, without a fault; behind them the buffer is as it was. -/
theorem numeral_canonical :
    (∀ (text : String) (word : UInt64), text = Log.numeral word ↔
      ∃ run, text.toList = '0' :: 'x' :: run ∧ Shortest run ∧ value run = word.toNat) ∧
    (∀ text : String, (∃ word, text = Log.numeral word) ↔
      ∃ run, text.toList = '0' :: 'x' :: run ∧ Shortest run) ∧
    (∀ word word' : UInt64, Log.numeral word = Log.numeral word' ↔ word = word') ∧
    ∀ (word : UInt64) (out : Buffer Writer.capacity),
      let text := Bytes.ofText (Log.numeral word)
      ∃ after, Writer.write word out = .ok (text, after) ∧
        after.bytes = text ++ out.bytes.drop text.length := by
  refine ⟨eq_numeral_iff, fun text => ⟨?_, ?_⟩, fun word word' => ⟨fun same => ?_, congrArg _⟩,
    fun word out => ?_⟩
  · rintro ⟨word, rfl⟩
    exact ⟨_, toList_numeral word.toNat, shortest_digits word⟩
  · rintro ⟨run, split, shortest⟩
    have denotes : value run = (UInt64.ofNat (value run)).toNat :=
      (UInt64.toNat_ofNat_of_lt' (value_lt shortest)).symm
    exact ⟨_, (eq_numeral_iff text _).mpr ⟨run, split, shortest, denotes⟩⟩
  · exact UInt64.toNat_inj.mp (numeral_injective same)
  · simp only [ofText_numeral]
    exact ⟨_, Writer.write_overwrite word out, out.overwrite_bytes (Writer.length_encoded_le word)⟩

/-- A short numeral leaves the rest of its buffer alone. -/
example : (Writer.write 0xf (.filled _ 0xff)).map (·.2.bytes.take 5) = .ok [0x30, 0x78, 0x66, 0xff, 0xff] := by
  decide

end KernelAbi.Hex
