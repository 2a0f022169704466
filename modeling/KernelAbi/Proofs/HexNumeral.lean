import KernelAbi.Hex

/-! Hexadecimal numerals read back. Reading the digits of a number gives the number, so that different
numbers have different numerals; a numeral is made of letters and digits alone. -/
namespace KernelAbi.Hex

def digitValue (c : Char) : Nat := if c.isDigit then c.toNat - '0'.toNat else c.toNat - 'a'.toNat + 10

/-- The number that a string of digits denotes. -/
def value (digits : List Char) : Nat := digits.foldl (fun value c => value * 16 + digitValue c) 0

theorem digitValue_digitChar : ∀ n < 16, digitValue n.digitChar = n := by decide

theorem value_concat (digits : List Char) (c : Char) : value (digits ++ [c]) = value digits * 16 + digitValue c := by
  simp [value]

theorem digits_eq (n : Nat) :
    digits n = if n < 16 then [n.digitChar] else digits (n / 16) ++ [(n % 16).digitChar] :=
  Nat.toDigits_eq_if (by decide)

theorem value_digits (n : Nat) : value (digits n) = n := by
  induction n using Nat.strongRecOn with
  | ind n ih =>
    rw [digits_eq]
    split
    next single => simpa [value] using digitValue_digitChar n single
    next longer =>
      have shorter : n / 16 < n := by omega
      rw [value_concat, ih _ shorter, digitValue_digitChar _ (Nat.mod_lt n (by decide)), Nat.div_add_mod']

theorem digits_injective {m n : Nat} (same : digits m = digits n) : m = n := by
  rw [← value_digits m, same, value_digits]

theorem exists_of_mem_digits {n : Nat} {c : Char} (member : c ∈ digits n) : ∃ k < 16, c = k.digitChar := by
  induction n using Nat.strongRecOn with
  | ind n ih =>
    rw [digits_eq] at member
    split at member
    next single => exact ⟨n, single, List.mem_singleton.mp member⟩
    next longer =>
      rcases List.mem_append.mp member with member | member
      · exact ih _ (by omega) member
      · exact ⟨n % 16, Nat.mod_lt n (by decide), List.mem_singleton.mp member⟩

theorem isAlphanum_digitChar : ∀ n < 16, n.digitChar.isAlphanum = true := by decide

theorem toList_numeral (n : Nat) : (numeral n).toList = '0' :: 'x' :: digits n := by
  simp [numeral]

theorem numeral_injective {m n : Nat} (same : numeral m = numeral n) : m = n := by
  have chars := congrArg String.toList same
  rw [toList_numeral, toList_numeral] at chars
  exact digits_injective (List.cons.inj (List.cons.inj chars).2).2

theorem isAlphanum_of_mem_numeral {n : Nat} {c : Char} (member : c ∈ (numeral n).toList) :
    c.isAlphanum = true := by
  rw [toList_numeral, List.mem_cons, List.mem_cons] at member
  rcases member with rfl | rfl | member
  · rfl
  · rfl
  · obtain ⟨k, bound, rfl⟩ := exists_of_mem_digits member
    exact isAlphanum_digitChar k bound

end KernelAbi.Hex
