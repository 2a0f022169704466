import KernelAbi.Bridge
import KernelAbi.Host.Interference
import KernelAbi.Host.Recorder

/-! The substitute for the copy of a text, over any host. Whatever count the host claims, the count that is
reported stays within the destination, and no sum on the way to it leaves its word. If the host holds to what
a plain copy promises, the destination ends in a terminator, which the reported count does not go past. -/
namespace KernelAbi

namespace Buffer

variable {size : Nat}

/-- What a plain copy promises: so many bytes of a text, and a terminator behind them where there is room. -/
structure HoldsText (buffer : Buffer size) (copied : Nat) : Prop where
  fits : copied ≤ size
  text : ∀ i < copied, buffer.bytes[i]? ≠ some 0
  terminator : copied < size → buffer.bytes[copied]? = some 0

/-- The first terminator stands at the index. -/
structure EndsAt (buffer : Buffer size) (index : Nat) : Prop where
  terminator : buffer.bytes[index]? = some 0
  first : ∀ i < index, buffer.bytes[i]? ≠ some 0

theorem EndsAt.inside {buffer : Buffer size} {index : Nat} (ends : buffer.EndsAt index) : index < size := by
  obtain ⟨bound, -⟩ := List.getElem?_eq_some_iff.mp ends.terminator
  rwa [buffer.length_bytes] at bound

/-- A text that leaves room for its terminator ends where it stops. -/
theorem HoldsText.ends {buffer : Buffer size} {copied : Nat} (holds : buffer.HoldsText copied)
    (room : copied < size) : buffer.EndsAt copied where
  terminator := holds.terminator room
  first := holds.text

/-- A text that fills the destination gives its last byte up. -/
theorem HoldsText.ends_set {buffer : Buffer size} (holds : buffer.HoldsText size) (nonempty : 0 < size) :
    (buffer.set (size - 1) 0).EndsAt (size - 1) where
  terminator := by
    have stored : size - 1 < buffer.bytes.length := by
      rw [buffer.length_bytes]
      omega
    exact List.getElem?_set_self stored
  first := by
    intro i before
    have apart : size - 1 ≠ i := Nat.ne_of_gt before
    have same : (buffer.set (size - 1) 0).bytes[i]? = buffer.bytes[i]? := List.getElem?_set_ne apart
    rw [same]
    exact holds.text i (by omega)

end Buffer

namespace StringBound

/-- A number as a word, if it is one. -/
def word? (n : Nat) : Option UInt64 := if n < UInt64.size then some (.ofNat n) else none

/-- The count that is reported for the one that the host claims, with each sum held to its word. -/
def adjusted? (size claimed : UInt64) : Option UInt64 :=
  if size ≤ claimed then some size
  else if 0 < claimed then word? (claimed.toNat + 1)
  else some claimed

section Adjustment

variable {size copied : Nat} {reply : Filled size}

/-- The three adjustments of a copy that went well. -/
theorem terminate_cases (claimed : reply.result = .ok copied) :
    size ≤ copied ∧ Bridge.terminate reply = ⟨.ok size, reply.buffer.set (size - 1) 0⟩ ∨
    copied < size ∧ 0 < copied ∧ Bridge.terminate reply = ⟨.ok (copied + 1), reply.buffer⟩ ∨
    copied < size ∧ copied = 0 ∧ Bridge.terminate reply = ⟨.ok 0, reply.buffer⟩ := by
  unfold Bridge.terminate
  rw [claimed]
  rcases Nat.lt_or_ge copied size with short | long
  · rcases Nat.eq_zero_or_pos copied with rfl | positive
    · exact .inr (.inr ⟨short, rfl, by simp [Nat.not_le.mpr short]⟩)
    · exact .inr (.inl ⟨short, positive, by simp [Nat.not_le.mpr short, positive]⟩)
  · exact .inl ⟨long, by simp [long]⟩

theorem exists_claim {r : Nat} (reported : (Bridge.terminate reply).result = .ok r) :
    ∃ copied, reply.result = .ok copied := by
  cases claimed : reply.result with
  | ok copied => exact ⟨copied, rfl⟩
  | error e =>
    unfold Bridge.terminate at reported
    rw [claimed] at reported
    contradiction

theorem terminate_le {r : Nat} (reported : (Bridge.terminate reply).result = .ok r) : r ≤ size := by
  obtain ⟨copied, claimed⟩ := exists_claim reported
  rcases terminate_cases claimed with ⟨-, equal⟩ | ⟨short, -, equal⟩ | ⟨-, -, equal⟩ <;> rw [equal] at reported
  · exact Nat.le_of_eq (Except.ok.inj reported).symm
  · obtain rfl : copied + 1 = r := Except.ok.inj reported
    exact short
  · obtain rfl : 0 = r := Except.ok.inj reported
    exact Nat.zero_le size

theorem terminate_ends {r : Nat} (nonempty : 0 < size)
    (promise : ∀ copied, reply.result = .ok copied → reply.buffer.HoldsText copied)
    (reported : (Bridge.terminate reply).result = .ok r) :
    (Bridge.terminate reply).buffer.EndsAt (max r 1 - 1) := by
  obtain ⟨copied, claimed⟩ := exists_claim reported
  have holds := promise copied claimed
  rcases terminate_cases claimed with ⟨long, equal⟩ | ⟨short, positive, equal⟩ | ⟨short, empty, equal⟩ <;>
    rw [equal] at reported ⊢
  · obtain rfl : size = r := Except.ok.inj reported
    obtain rfl : copied = size := Nat.le_antisymm holds.fits long
    rw [Nat.max_eq_left nonempty]
    exact holds.ends_set nonempty
  · obtain rfl : copied + 1 = r := Except.ok.inj reported
    have counted : max (copied + 1) 1 - 1 = copied := by omega
    rw [counted]
    exact holds.ends short
  · obtain rfl : 0 = r := Except.ok.inj reported
    subst empty
    exact holds.ends short

/-- In words the adjustment comes to the same: one is added only to a count below the size. -/
theorem adjusted?_terminate (addressable : size < UInt64.size) {count : UInt64}
    (claimed : reply.result = .ok count.toNat) :
    ∃ r, adjusted? (.ofNat size) count = some r ∧ (Bridge.terminate reply).result = .ok r.toNat := by
  have width : (UInt64.ofNat size).toNat = size := UInt64.toNat_ofNat_of_lt' addressable
  have reaches : UInt64.ofNat size ≤ count ↔ size ≤ count.toNat := by
    rw [UInt64.le_iff_toNat_le, width]
  have counts : 0 < count ↔ 0 < count.toNat := UInt64.lt_iff_toNat_lt
  unfold adjusted?
  rcases terminate_cases claimed with ⟨long, equal⟩ | ⟨short, positive, equal⟩ | ⟨short, empty, equal⟩ <;>
    rw [equal]
  · exact ⟨_, if_pos (reaches.mpr long), by rw [width]⟩
  · have fits : count.toNat + 1 < UInt64.size := Nat.lt_of_le_of_lt short addressable
    refine ⟨.ofNat (count.toNat + 1), ?_, by rw [UInt64.toNat_ofNat_of_lt' fits]⟩
    rw [if_neg (mt reaches.mp (Nat.not_le.mpr short)), if_pos (counts.mpr positive)]
    exact if_pos fits
  · refine ⟨count, ?_, by rw [empty]⟩
    rw [if_neg (mt reaches.mp (Nat.not_le.mpr short)), if_neg (mt counts.mp (by omega))]

end Adjustment

/-- The recording host holds to the promise for a text without a terminator of its own. -/
theorem fillText_holdsText {size : Nat} (buffer : Buffer size) {text : Bytes} (unbroken : 0 ∉ text) :
    (Recorder.fillText buffer text).buffer.HoldsText (min text.length size) := by
  have bytes : (Recorder.fillText buffer text).buffer.bytes =
      (text ++ [0]).take size ++ buffer.bytes.drop (text ++ [0]).length := by
    rw [Recorder.fillText_eq]
    rfl
  refine ⟨Nat.min_le_right _ _, fun i copied => ?_, fun room => ?_⟩
  · have inText : i < text.length := Nat.lt_of_lt_of_le copied (Nat.min_le_left _ _)
    have inside : i < size := Nat.lt_of_lt_of_le copied (Nat.min_le_right _ _)
    rw [bytes, List.getElem?_append_left (by simp; omega), List.getElem?_take_of_lt inside,
      List.getElem?_append_left inText, List.getElem?_eq_getElem inText]
    intro zero
    exact unbroken (Option.some.inj zero ▸ List.getElem_mem inText)
  · have short : text.length < size := by omega
    rw [Nat.min_eq_left (Nat.le_of_lt short), bytes, List.getElem?_append_left (by simp; omega),
      List.getElem?_take_of_lt short, List.getElem?_append_right (Nat.le_refl _), Nat.sub_self]
    rfl

section AnyHost

variable {κ : Type} (host : Host κ) (m : Machine κ) {size : Nat} (buffer : Buffer size) (address : UInt64)

theorem copyStringSubstitute_empty (empty : size = 0) :
    Bridge.copyStringSubstitute host buffer address = pure ⟨.ok 0, buffer⟩ := by
  unfold Bridge.copyStringSubstitute
  rw [if_pos empty]

theorem copyStringSubstitute_nonempty (nonempty : 0 < size) :
    ((Bridge.copyStringSubstitute host buffer address).run m).1 =
      Bridge.terminate ((host.call (.copyString buffer address)).run m).1 := by
  unfold Bridge.copyStringSubstitute
  rw [if_neg (Nat.ne_of_gt nonempty)]
  rfl

/-- Over any host, at any address: the report is never more than the destination has room for, and an empty
destination is not shown to the host. Any word that the host claims is adjusted without leaving the word. A
host that holds to its promise gets its text terminated in the destination, at the byte that the report ends
with, or at the first byte where it reports none. -/
theorem copyStringSubstitute_bounded :
    let reply := ((host.call (.copyString buffer address)).run m).1
    let copy := ((Bridge.copyStringSubstitute host buffer address).run m).1
    (∀ r, copy.result = .ok r → r ≤ size) ∧
    (size = 0 → Bridge.copyStringSubstitute host buffer address = pure ⟨.ok 0, buffer⟩) ∧
    (0 < size → size < UInt64.size → ∀ claimed : UInt64, reply.result = .ok claimed.toNat →
      ∃ r, adjusted? (.ofNat size) claimed = some r ∧ copy.result = .ok r.toNat) ∧
    (0 < size → (∀ copied, reply.result = .ok copied → reply.buffer.HoldsText copied) →
      ∀ r, copy.result = .ok r →
        ∃ index < size, index = max r 1 - 1 ∧ r ≤ index + 1 ∧ copy.buffer.EndsAt index) := by
  intro reply copy
  have adjusted (nonempty : 0 < size) : copy = Bridge.terminate reply :=
    copyStringSubstitute_nonempty host m buffer address nonempty
  refine ⟨?_, copyStringSubstitute_empty host buffer address, ?_, ?_⟩
  · intro r reported
    rcases Nat.eq_zero_or_pos size with empty | nonempty
    · have nothing : copy = ⟨.ok 0, buffer⟩ := by
        simp only [copy, copyStringSubstitute_empty host buffer address empty, Machine.run_pure]
      rw [nothing] at reported
      obtain rfl : 0 = r := Except.ok.inj reported
      exact Nat.zero_le size
    · rw [adjusted nonempty] at reported
      exact terminate_le reported
  · intro nonempty addressable count claimed
    rw [adjusted nonempty]
    exact adjusted?_terminate addressable claimed
  · intro nonempty promise r reported
    rw [adjusted nonempty] at reported ⊢
    have ends := terminate_ends nonempty promise reported
    exact ⟨max r 1 - 1, ends.inside, rfl, by omega, ends⟩

end AnyHost

/-- A host that claims the greatest word there is, and one that holds to its promise and fills the
destination exactly. -/
theorem copyStringSubstitute_bounded_full :
    let text : Bytes := [0x2f, 0x73, 0x79, 0x73]
    let m : Machine Recorder := { kernel := { userTexts := [⟨4096, text⟩] } }
    let buffer : Buffer 4 := .filled 4 0xff
    let liar := ({ copyCount := some 0xffffffffffffffff } : Interference).disturb Recorder.host
    let lie := ((Bridge.copyStringSubstitute liar buffer 4096).run m).1
    let copy := ((Bridge.copyStringSubstitute Recorder.host buffer 4096).run m).1
    0 < 4 ∧ 4 < UInt64.size ∧
    ((liar.call (.copyString buffer 4096)).run m).1.result = .ok (0xffffffffffffffff : UInt64).toNat ∧
    lie.result = .ok 4 ∧ copy.result = .ok 4 ∧ copy.buffer.EndsAt 3 := by
  intro text m buffer liar lie copy
  have nonempty : 0 < 4 := by decide
  have addressable : 4 < UInt64.size := by decide
  have claimed : ((liar.call (.copyString buffer 4096)).run m).1.result =
      .ok (0xffffffffffffffff : UInt64).toNat := rfl
  obtain ⟨-, -, words, -⟩ := copyStringSubstitute_bounded liar m buffer 4096
  obtain ⟨-, -, -, honest⟩ := copyStringSubstitute_bounded Recorder.host m buffer 4096
  obtain ⟨r, four, reported⟩ := words nonempty addressable 0xffffffffffffffff claimed
  obtain rfl : 4 = r := Option.some.inj four
  have promise : ∀ copied, (Recorder.fillText buffer text).result = .ok copied →
      (Recorder.fillText buffer text).buffer.HoldsText copied := by
    intro copied filled
    obtain rfl : min text.length 4 = copied := Except.ok.inj filled
    exact fillText_holdsText buffer (by decide)
  obtain ⟨index, -, rfl, -, ends⟩ := honest nonempty promise 4 rfl
  exact ⟨nonempty, addressable, claimed, reported, rfl, ends⟩

end StringBound
end KernelAbi
