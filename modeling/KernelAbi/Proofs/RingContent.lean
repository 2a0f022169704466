import KernelAbi.Log.Ring

/-! The content of the log's ring. The byte written at position `i` of the whole stream stands in cell
`i % capacity` until the stream is `capacity` bytes further on, so a ring holds the end of the stream, and
how the stream was cut into writes leaves no trace. -/
namespace KernelAbi.Log.Ring

/-- `ring` is what the stream `written` leaves of itself. -/
structure Holds (ring : Ring) (written : Bytes) : Prop where
  size : ring.cells.size = capacity
  head : ring.head = written.length % capacity
  length : ring.length = min written.length capacity
  kept : ∀ i, i < written.length → written.length ≤ i + capacity →
    ring.cells[i % capacity]? = written[i]?

/-- No access to the cells leaves them, and no difference of the ring's indices is below zero. -/
structure Safe (ring : Ring) : Prop where
  head : ring.head < capacity
  length : ring.length ≤ capacity
  next : ring.head < ring.cells.size
  start : ring.length ≤ ring.head + capacity
  read : ∀ index, (ring.start + index) % capacity < ring.cells.size

theorem empty_holds : empty.Holds [] where
  size := by simp [empty]
  head := rfl
  length := rfl
  kept := by simp

/-- Positions that are less than a lap apart have cells of their own. -/
theorem cell_ne {i n : Nat} (before : i < n) (near : n < i + capacity) : i % capacity ≠ n % capacity := by
  intro same
  have lap : capacity ∣ n - i := Nat.dvd_of_mod_eq_zero (Nat.sub_mod_eq_zero_of_mod_eq same.symm)
  have whole : capacity ≤ n - i := Nat.le_of_dvd (by omega) lap
  omega

variable {ring : Ring} {written : Bytes}

theorem push_holds (holds : ring.Holds written) (byte : UInt8) :
    (ring.push byte).Holds (written ++ [byte]) where
  size := by simpa [push] using holds.size
  head := by simp [push, holds.head]
  length := by
    simp only [push, holds.length, List.length_append, List.length_singleton]
    omega
  kept := by
    intro i bound recent
    have length : (written ++ [byte]).length = written.length + 1 := by simp
    rcases Nat.lt_or_eq_of_le (Nat.le_of_lt_succ (length ▸ bound)) with before | rfl
    · have apart : ring.head ≠ i % capacity := by
        rw [holds.head]
        exact (cell_ne before (by omega)).symm
      rw [push, Array.getElem?_setIfInBounds_ne apart, holds.kept i before (by omega),
        List.getElem?_append_left before]
    · have inside : written.length % capacity < ring.cells.size := by
        rw [holds.size]
        exact Nat.mod_lt _ (by decide)
      rw [push, holds.head, Array.getElem?_setIfInBounds_self_of_lt inside]
      simp

theorem write_holds (holds : ring.Holds written) (bytes : Bytes) :
    (ring.write bytes).Holds (written ++ bytes) := by
  induction bytes generalizing ring written with
  | nil => simpa [write] using holds
  | cons byte bytes ih =>
    have later := ih (push_holds holds byte)
    rwa [List.append_assoc, List.singleton_append] at later

theorem write_append (ring : Ring) (first later : Bytes) :
    ring.write (first ++ later) = (ring.write first).write later := by
  simp only [write, List.foldl_append]

/-- Writes in turn are one write of all their bytes. -/
theorem writes_eq_write (writes : List Bytes) (ring : Ring) :
    writes.foldl write ring = ring.write writes.flatten := by
  induction writes generalizing ring with
  | nil => rfl
  | cons bytes writes ih => rw [List.foldl_cons, ih, List.flatten_cons, write_append]

theorem Holds.safe (holds : ring.Holds written) : ring.Safe where
  head := by
    rw [holds.head]
    exact Nat.mod_lt _ (by decide)
  length := by
    rw [holds.length]
    exact Nat.min_le_right _ _
  next := by
    rw [holds.head, holds.size]
    exact Nat.mod_lt _ (by decide)
  start := by
    rw [holds.length]
    omega
  read := by
    intro index
    rw [holds.size]
    exact Nat.mod_lt _ (by decide)

/-- Before the first lap the oldest byte stands in the first cell, later in the cell that is written next. -/
theorem Holds.start_add (holds : ring.Holds written) (index : Nat) :
    (ring.start + index) % capacity = (written.length - ring.length + index) % capacity := by
  have lap : capacity = 4096 := rfl
  simp only [start, holds.head, holds.length, lap]
  omega

theorem Holds.byte_eq (holds : ring.Holds written) {index : Nat} (inside : index < ring.length) :
    written[written.length - ring.length + index]? = some (ring.byte index) := by
  have length := holds.length
  have bound : written.length - ring.length + index < written.length := by omega
  have cell := holds.kept (written.length - ring.length + index) bound (by omega)
  have present : (ring.start + index) % capacity < ring.cells.size := holds.safe.read index
  rw [← cell, ← holds.start_add, byte, Array.getElem?_eq_getElem present]
  simp [Array.getD, present]

/-- The newest `count` bytes of the ring are the last ones of the stream. -/
theorem Holds.newest (holds : ring.Holds written) {count : Nat} (fits : count ≤ ring.length) :
    ((List.range count).map fun i => ring.byte (ring.length - count + i)) =
      written.drop (written.length - count) := by
  have length := holds.length
  apply List.ext_getElem?
  intro i
  by_cases inside : i < count
  · have position : written.length - count + i =
        written.length - ring.length + (ring.length - count + i) := by omega
    rw [List.getElem?_drop, position, holds.byte_eq (by omega)]
    simp [inside]
  · rw [List.getElem?_eq_none (by simp; omega), List.getElem?_eq_none (by simp; omega)]

/-- A copy gives the end of the stream, as much of it as the ring has kept and there is room for. -/
theorem Holds.copyTo_end (holds : ring.Holds written) {size : Nat} (out : Buffer size) :
    let count := min size (min capacity written.length)
    let copy := ring.copyTo out
    copy.1 = count ∧ copy.2.bytes = written.drop (written.length - count) ++ out.bytes.drop count := by
  intro count copy
  have kept := holds.length
  have number : min ring.length size = count := by omega
  have newest : ((List.range count).map fun i => ring.byte (ring.length - count + i)) =
      written.drop (written.length - count) := holds.newest (by omega)
  have copied : copy = (count, out.overwrite (written.drop (written.length - count))) := by
    simp only [copy, copyTo, number, newest]
  have length : (written.drop (written.length - count)).length = count := by
    rw [List.length_drop]
    omega
  rw [copied]
  refine ⟨rfl, ?_⟩
  rw [out.overwrite_bytes (by omega), length]

/-- A ring is the last `capacity` bytes of all that was written to it. A copy gives as many of them as
there is room for, the newest, and leaves the rest of the room alone; it does not depend on how the bytes
came. At every byte of every write the ring's indices are within its cells. -/
theorem copyTo_stream (writes : List Bytes) {size : Nat} (out : Buffer size) :
    let written := writes.flatten
    let ring := writes.foldl write empty
    let count := min size (min capacity written.length)
    let copy := ring.copyTo out
    copy.1 = count ∧
    copy.2.bytes.take count = written.drop (written.length - count) ∧
    copy.2.bytes.drop count = out.bytes.drop count ∧
    copy.1 ≤ ring.length ∧
    (∀ others : List Bytes, others.flatten = written → others.foldl write empty = ring) ∧
    ring = written.foldl push empty ∧
    (∀ earlier later, written = earlier ++ later → (earlier.foldl push empty).Safe) := by
  intro written ring count copy
  have whole : ring = empty.write written := writes_eq_write writes empty
  have holds : ring.Holds written := whole ▸ write_holds empty_holds written
  have kept := holds.length
  obtain ⟨number, bytes⟩ : copy.1 = count ∧
      copy.2.bytes = written.drop (written.length - count) ++ out.bytes.drop count := holds.copyTo_end out
  have length : (written.drop (written.length - count)).length = count := by
    rw [List.length_drop]
    omega
  refine ⟨number, ?_, ?_, ?_, ?_, whole, ?_⟩
  · rw [bytes, List.take_left' length]
  · rw [bytes, List.drop_left' length]
  · rw [number]
    omega
  · intro others same
    rw [writes_eq_write, same, whole]
  · intro earlier later _
    exact (write_holds empty_holds earlier).safe

/-- The last write goes over the end of the cells, and what it brings is found the same when it comes in
other pieces. -/
theorem copyTo_stream_lap :
    let writes : List Bytes := [List.replicate 4094 0, [], [1, 2, 3]]
    let others : List Bytes := [List.replicate 4094 0 ++ [1], [2, 3]]
    let out : Buffer 4 := .filled 4 0xff
    let ring := writes.foldl write empty
    others.flatten = writes.flatten ∧ others.foldl write empty = ring ∧
    (ring.copyTo out).1 = 4 ∧ (ring.copyTo out).2.bytes.take 4 = [0, 1, 2, 3] := by
  intro writes others out ring
  have total : writes.flatten.length = 4097 := by simp [writes, -List.reduceReplicate]
  have same : others.flatten = writes.flatten := by simp [others, writes, -List.reduceReplicate]
  have count : min 4 (min capacity writes.flatten.length) = 4 := by
    rw [total]
    rfl
  obtain ⟨number, newest, -, -, pieces, -, -⟩ := copyTo_stream writes out
  rw [count] at number newest
  refine ⟨same, pieces others same, number, newest.trans ?_⟩
  simp [writes, List.drop_append, -List.reduceReplicate]

end KernelAbi.Log.Ring
