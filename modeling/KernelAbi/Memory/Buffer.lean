/-! Byte strings and destinations. A destination is the memory that a caller lends for a copy: its
size is fixed, and a copy that does not reach the end leaves what was there. -/
namespace KernelAbi

abbrev Bytes := List UInt8

def Bytes.ofText (text : String) : Bytes := text.toUTF8.toList

structure Buffer (size : Nat) where
  bytes : Bytes
  length_bytes : bytes.length = size
deriving DecidableEq, Repr

namespace Buffer

variable {size : Nat}

@[ext] theorem ext {first second : Buffer size} (same : first.bytes = second.bytes) : first = second := by
  cases first
  cases second
  cases same
  rfl

def filled (size : Nat) (byte : UInt8) : Buffer size := ⟨List.replicate size byte, by simp⟩

/-- `source` overwrites the front. What does not fit is dropped, what it does not reach is kept. -/
def overwrite (buffer : Buffer size) (source : Bytes) : Buffer size where
  bytes := source.take size ++ buffer.bytes.drop source.length
  length_bytes := by
    have := buffer.length_bytes
    simp only [List.length_append, List.length_take, List.length_drop]
    omega

/-- A source that fits goes in whole. -/
theorem overwrite_bytes (buffer : Buffer size) {source : Bytes} (fits : source.length ≤ size) :
    (buffer.overwrite source).bytes = source ++ buffer.bytes.drop source.length := by
  simp only [overwrite, List.take_of_length_le fits]

/-- Indices past the end change nothing. -/
def set (buffer : Buffer size) (index : Nat) (byte : UInt8) : Buffer size where
  bytes := buffer.bytes.set index byte
  length_bytes := by simpa using buffer.length_bytes

theorem set_set (buffer : Buffer size) (index : Nat) (first later : UInt8) :
    (buffer.set index first).set index later = buffer.set index later := by
  ext1
  exact List.set_set _

/-- A destination without room takes nothing. -/
theorem overwrite_roomless (buffer : Buffer 0) (source : Bytes) : buffer.overwrite source = buffer := by
  ext1
  rw [List.eq_nil_of_length_eq_zero (length_bytes _), List.eq_nil_of_length_eq_zero buffer.length_bytes]

/-- What does not fit may as well be dropped beforehand. -/
theorem overwrite_take (buffer : Buffer size) (source : Bytes) :
    buffer.overwrite (source.take size) = buffer.overwrite source := by
  ext1
  by_cases fits : source.length ≤ size
  · rw [List.take_of_length_le fits]
  · have cut : (source.take size).length = size := List.length_take_of_le (by omega)
    have reached : buffer.bytes.length ≤ (source.take size).length :=
      Nat.le_of_eq (buffer.length_bytes.trans cut.symm)
    have passed : buffer.bytes.length ≤ source.length := by
      rw [buffer.length_bytes]
      omega
    simp only [overwrite, List.take_take, Nat.min_self, List.drop_eq_nil_of_le reached,
      List.drop_eq_nil_of_le passed]

/-- A byte that is set right behind the source lengthens the source. -/
theorem overwrite_set_behind (buffer : Buffer size) {source : Bytes} (room : source.length < size)
    (byte : UInt8) :
    (buffer.overwrite source).set source.length byte = buffer.overwrite (source ++ [byte]) := by
  have length : (source ++ [byte]).length = source.length + 1 := List.length_append
  have present : source.length < buffer.bytes.length := by rwa [buffer.length_bytes]
  ext1
  rw [buffer.overwrite_bytes (by omega), length]
  simp only [set, buffer.overwrite_bytes (Nat.le_of_lt room)]
  rw [List.set_append_right _ _ (Nat.le_refl _), Nat.sub_self, List.drop_eq_getElem_cons present,
    List.set_cons_zero, List.append_assoc, List.singleton_append]

/-- In a destination that the source fills, the last byte may be set beforehand. -/
theorem overwrite_set_last (buffer : Buffer size) (nonempty : 0 < size) {source : Bytes}
    (long : size ≤ source.length) (byte : UInt8) :
    (buffer.overwrite source).set (size - 1) byte = buffer.overwrite (source.take (size - 1) ++ [byte]) := by
  have last : size - 1 < source.length := by omega
  have front : (source.take (size - 1)).length = size - 1 := List.length_take_of_le (by omega)
  have filled : source.take size = source.take (size - 1) ++ [source[size - 1]] := by
    rw [List.take_append_getElem, Nat.sub_add_cancel nonempty]
  have behind (byte : UInt8) : (buffer.overwrite (source.take (size - 1))).set (size - 1) byte =
      buffer.overwrite (source.take (size - 1) ++ [byte]) := by
    rw [← buffer.overwrite_set_behind (by omega), front]
  rw [← buffer.overwrite_take, filled, ← behind, set_set, behind]

/-- The first `count` bytes, lent as a destination of their own. -/
def front (buffer : Buffer size) (count : Nat) : Buffer (min count size) where
  bytes := buffer.bytes.take count
  length_bytes := by simp [buffer.length_bytes]

end Buffer
end KernelAbi
