import KernelAbi.Proofs.Recording
import KernelAbi.Selection.Resolve

/-! The copy of a text from user memory. Two forms of the host and the module's substitute leave the same
bytes in the destination: the text and its terminator, cut to the size of the destination. They also
report the same count, but for the empty text: the substitute reports nothing for it, where the others
count its terminator. -/
namespace KernelAbi

/-- The bytes that a text takes in a destination, its terminator included. -/
def Bytes.room (text : Bytes) (size : Nat) : Nat := min (text.length + 1) size

/-- `after` is what `before` becomes when it receives the text. A text that is too long ends in a
terminator all the same. -/
structure Buffer.Receives {size : Nat} (before : Buffer size) (text : Bytes) (after : Buffer size) :
    Prop where
  front : after.bytes.take (text.room size - 1) = text.take (text.room size - 1)
  terminator : after.bytes[text.room size - 1]? = some 0
  rest : after.bytes.drop (text.room size) = before.bytes.drop (text.room size)

namespace StringCopy

section Filling

variable {size : Nat} (buffer : Buffer size) (text : Bytes)

theorem length_front (nonempty : 0 < size) :
    (text.take (text.room size - 1)).length + 1 = text.room size := by
  simp only [List.length_take, Bytes.room]
  omega

theorem receives_of_bytes {after : Buffer size} (nonempty : 0 < size)
    (bytes : after.bytes = text.take (text.room size - 1) ++ [0] ++ buffer.bytes.drop (text.room size)) :
    buffer.Receives text after := by
  have whole := length_front text nonempty
  have kept : (text.take (text.room size - 1)).length = text.room size - 1 := by omega
  refine ⟨?_, ?_, ?_⟩
  · rw [bytes, List.append_assoc, List.take_append_of_le_length (Nat.le_of_eq kept.symm),
      List.take_take, Nat.min_self]
  · rw [bytes, List.append_assoc, List.getElem?_append_right (Nat.le_of_eq kept), kept, Nat.sub_self]
    rfl
  · have length : (text.take (text.room size - 1) ++ [0]).length = text.room size := by simpa using whole
    rw [bytes, List.drop_append, length, Nat.sub_self, List.drop_zero,
      List.drop_eq_nil_of_le (Nat.le_of_eq length), List.nil_append]

theorem fillTerminated_bytes (nonempty : 0 < size) :
    (Recorder.fillTerminated buffer text).buffer.bytes =
      text.take (text.room size - 1) ++ [0] ++ buffer.bytes.drop (text.room size) := by
  have cut : text.take (size - 1) = text.take (text.room size - 1) := by
    rw [List.take_eq_take_iff, Bytes.room]
    omega
  have length : (text.take (text.room size - 1) ++ [0]).length = text.room size := by
    simpa using length_front text nonempty
  have fits : text.room size ≤ size := Nat.min_le_right _ _
  rw [Recorder.fillTerminated_eq, cut]
  show (buffer.overwrite _).bytes = _
  rw [buffer.overwrite_bytes (by omega), length]

/-- The substitute's adjustment of a plain copy. -/
theorem terminate_fillText (nonempty : 0 < size) :
    Bridge.terminate (Recorder.fillText buffer text) =
      ⟨.ok (if text = [] then 0 else text.room size), (Recorder.fillTerminated buffer text).buffer⟩ := by
  have plain : Recorder.fillText buffer text =
      ⟨.ok (min text.length size), (Recorder.copyText buffer text).2⟩ := rfl
  have terminated : Recorder.fillTerminated buffer text =
      if size ≤ min text.length size then ⟨.ok size, (Recorder.copyText buffer text).2.set (size - 1) 0⟩
      else ⟨.ok (min text.length size + 1), (Recorder.copyText buffer text).2⟩ := if_neg (Nat.ne_of_gt nonempty)
  rw [plain, terminated]
  by_cases long : size ≤ text.length
  · have filled : text ≠ [] := by
      rintro rfl
      simp at long
      omega
    have count : min text.length size = size := Nat.min_eq_right long
    have room : text.room size = size := Nat.min_eq_right (by omega)
    simp only [Bridge.terminate, count, Nat.le_refl, if_true, if_neg filled, room]
  · have count : min text.length size = text.length := Nat.min_eq_left (by omega)
    have room : text.room size = text.length + 1 := Nat.min_eq_left (by omega)
    simp only [Bridge.terminate, count, if_neg long, room]
    cases text with
    | nil => rfl
    | cons byte bytes => rfl

end Filling

section Mapping

variable (r : Recorder) (address : UInt64)

theorem userText_mapped {text : Bytes} {earlier later : List UserText}
    (mapped : r.userTexts = earlier ++ ⟨address, text⟩ :: later)
    (first : ∀ other ∈ earlier, other.address ≠ address) : r.userText address = .ok text := by
  have found : r.userTexts.find? (·.address = address) = some ⟨address, text⟩ := by
    rw [mapped, List.find?_append, List.find?_eq_none.mpr (by simpa using first)]
    simp
  simp only [Recorder.userText, found]

theorem userText_unmapped (unmapped : ∀ other ∈ r.userTexts, other.address ≠ address) :
    r.userText address = .error .efault := by
  have absent : r.userTexts.find? (·.address = address) = none :=
    List.find?_eq_none.mpr (by simpa using unmapped)
  simp only [Recorder.userText, absent]

end Mapping

variable (s : Selection) (m : Machine Recorder) {size : Nat} (buffer : Buffer size) (address : UInt64)

theorem copyString_answer (nonempty : 0 < size) :
    ((s.bridge.copyString buffer address).run m).1 =
      if s.stringCopy = .substitute then
        Bridge.terminate (Recorder.copyWith Recorder.fillText m.kernel buffer address)
      else Recorder.copyWith Recorder.fillTerminated m.kernel buffer address := by
  cases form : s.stringCopy with
  | nofault =>
    simp only [Bridge.copyString, form]
    rfl
  | unsafeUser =>
    simp only [Bridge.copyString, form]
    rfl
  | substitute =>
    have present : size ≠ 0 := Nat.ne_of_gt nonempty
    simp only [Bridge.copyString, Bridge.copyStringSubstitute, form, present]
    rfl

theorem copyString_mapped (nonempty : 0 < size) {text : Bytes}
    (mapped : m.kernel.userText address = .ok text) :
    ((s.bridge.copyString buffer address).run m).1 =
      ⟨.ok (if s.stringCopy = .substitute ∧ text = [] then 0 else text.room size),
        (Recorder.fillTerminated buffer text).buffer⟩ := by
  rw [copyString_answer s m buffer address nonempty]
  simp only [Recorder.copyWith, mapped]
  by_cases substitute : s.stringCopy = .substitute
  · rw [if_pos substitute, terminate_fillText buffer text nonempty]
    simp only [substitute, true_and]
  · rw [if_neg substitute, if_neg (fun both => substitute both.1), Recorder.fillTerminated_eq]
    rfl

theorem copyString_unmapped (nonempty : 0 < size)
    (unmapped : m.kernel.userText address = .error .efault) :
    ((s.bridge.copyString buffer address).run m).1 = ⟨.error .efault, buffer⟩ := by
  rw [copyString_answer s m buffer address nonempty]
  simp only [Recorder.copyWith, unmapped]
  split <;> rfl

/-- The contract of the copy, in all its forms. The one text that a form may report otherwise is the empty
one: the substitute does not count the terminator of it. -/
theorem copyString_contract (nonempty : 0 < size) :
    let filled := ((s.bridge.copyString buffer address).run m).1
    (∀ earlier text later, m.kernel.userTexts = earlier ++ ⟨address, text⟩ :: later →
      (∀ other ∈ earlier, other.address ≠ address) →
      buffer.Receives text filled.buffer ∧
      (filled.result = .ok (text.room size) ↔ ¬ (s.stringCopy = .substitute ∧ text = [])) ∧
      (s.stringCopy = .substitute → text = [] → filled.result = .ok 0)) ∧
    ((∀ other ∈ m.kernel.userTexts, other.address ≠ address) → filled = ⟨.error .efault, buffer⟩) := by
  intro filled
  constructor
  · intro earlier text later mapped first
    have answer : filled = _ := copyString_mapped s m buffer address nonempty
      (userText_mapped m.kernel address mapped first)
    have positive : 0 < text.room size := by
      have whole := length_front text nonempty
      omega
    rw [answer]
    refine ⟨receives_of_bytes buffer text nonempty (fillTerminated_bytes buffer text nonempty), ?_, ?_⟩
    · by_cases exception : s.stringCopy = .substitute ∧ text = []
      · rw [if_pos exception]
        constructor
        · intro same
          have nothing : 0 = text.room size := Except.ok.inj same
          omega
        · exact fun other => absurd exception other
      · rw [if_neg exception]
        exact ⟨fun _ => exception, fun _ => rfl⟩
    · intro substitute empty
      rw [if_pos ⟨substitute, empty⟩]
  · intro unmapped
    exact copyString_unmapped s m buffer address nonempty (userText_unmapped m.kernel address unmapped)

/-- A text that does not fit, behind another one, on a kernel that has to be helped. -/
theorem copyString_contract_truncated :
    let s := Selection.of (.make 4 19 0) .empty
    let buffer : Buffer 4 := .filled 4 0xff
    let text : Bytes := [0x2f, 0x73, 0x79, 0x73, 0x74]
    let m : Machine Recorder := { kernel := { userTexts := [⟨64, [1]⟩, ⟨4096, text⟩] } }
    let filled := ((s.bridge.copyString buffer 4096).run m).1
    0 < 4 ∧ filled.result = .ok 4 ∧ filled.buffer.bytes = [0x2f, 0x73, 0x79, 0] := by
  intro s buffer text m filled
  have nonempty : 0 < 4 := by decide
  obtain ⟨contract, -⟩ := copyString_contract s m buffer 4096 nonempty
  obtain ⟨-, counted, -⟩ := contract [⟨64, [1]⟩] text [] rfl (by decide)
  have notEmpty : ¬ (s.stringCopy = .substitute ∧ text = []) := by decide
  exact ⟨nonempty, counted.mpr notEmpty, by decide +kernel⟩

/-- The count that is promised for every text is that of the terminator alone for the empty one. The
substitute leaves it out, and the host's own form does not. -/
theorem empty_text_uncounted :
    let old := Selection.of (.make 4 19 0) .empty
    let recent := Selection.of (.make 5 10 0) .empty
    let buffer : Buffer 4 := .filled 4 0xff
    let m : Machine Recorder := { kernel := { userTexts := [⟨4096, []⟩] } }
    Bytes.room [] 4 = 1 ∧
    ((recent.bridge.copyString buffer 4096).run m).1.result = .ok 1 ∧
    ((old.bridge.copyString buffer 4096).run m).1.result = .ok 0 := by
  intro old recent buffer m
  exact ⟨rfl, rfl, rfl⟩

end StringCopy
end KernelAbi
