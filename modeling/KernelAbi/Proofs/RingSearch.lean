import KernelAbi.Proofs.RingContent

/-! Search in the log's ring. It walks the cells on its own, and finds what a copy of the whole ring would
show: no match runs over the seam from the newest byte to the oldest, and none uses a byte that was
overwritten. -/
namespace KernelAbi.Log.Ring

/-- The bytes of the ring, oldest first. -/
def content (ring : Ring) : Bytes := (List.range ring.length).map ring.byte

section Search

variable {ring : Ring} {needle written : Bytes} {index : Nat}

@[simp] theorem length_content (ring : Ring) : ring.content.length = ring.length := by simp [content]

theorem getElem?_content (inside : index < ring.length) : ring.content[index]? = some (ring.byte index) := by
  simp [content, inside]

theorem matchesAt_iff : ring.matchesAt index needle = true ↔
    ∀ (i : Nat) (bound : i < needle.length), ring.byte (index + i) = needle[i] := by
  induction needle generalizing index with
  | nil => simp [matchesAt]
  | cons b needle ih =>
    rw [matchesAt, Bool.and_eq_true, beq_iff_eq, ih]
    constructor
    · rintro ⟨first, rest⟩ i bound
      cases i with
      | zero => exact first
      | succ i =>
        rw [List.getElem_cons_succ, ← rest i (Nat.lt_of_succ_lt_succ bound)]
        exact congrArg ring.byte (by omega)
    · intro all
      refine ⟨all 0 (by simp), fun i bound => ?_⟩
      have next := all (i + 1) (Nat.succ_lt_succ bound)
      rw [List.getElem_cons_succ] at next
      rw [← next]
      exact congrArg ring.byte (by omega)

/-- The offsets that are tried are those at which the needle ends inside. -/
theorem contains_iff_exists : ring.contains needle = true ↔
    ∃ index, index + needle.length ≤ ring.length ∧ ring.matchesAt index needle = true := by
  rw [contains, Bool.and_eq_true, decide_eq_true_eq, List.any_eq_true]
  constructor
  · rintro ⟨fits, index, tried, found⟩
    have bound := List.mem_range.mp tried
    exact ⟨index, by omega, found⟩
  · rintro ⟨index, fits, found⟩
    exact ⟨by omega, index, List.mem_range.mpr (by omega), found⟩

theorem contains_iff_content : ring.contains needle = true ↔ needle <:+: ring.content := by
  rw [contains_iff_exists, List.infix_iff_getElem?]
  refine exists_congr fun index => ?_
  rw [length_content, Nat.add_comm needle.length]
  refine and_congr_right fun fits => ?_
  rw [matchesAt_iff]
  refine forall_congr' fun i => forall_congr' fun bound => ?_
  rw [getElem?_content (by omega), Option.some_inj, Nat.add_comm i]

theorem Holds.content (holds : ring.Holds written) :
    ring.content = written.drop (written.length - ring.length) := by
  have newest := holds.newest (Nat.le_refl ring.length)
  simp only [Nat.sub_self, Nat.zero_add] at newest
  exact newest

/-- A copy with enough room is the whole content. -/
theorem copyTo_content {size : Nat} (ring : Ring) (room : ring.length ≤ size) (out : Buffer size) :
    (ring.copyTo out).2.bytes.take (ring.copyTo out).1 = ring.content := by
  have count : min ring.length size = ring.length := Nat.min_eq_left room
  have fits : ring.content.length ≤ size := by rwa [length_content]
  have copied : ring.copyTo out = (ring.length, out.overwrite ring.content) := by
    simp only [copyTo, count, Nat.sub_self, Nat.zero_add, Ring.content]
  rw [copied, out.overwrite_bytes fits, List.take_left' ring.length_content]

end Search

/-- Of what was written, a ring finds just what a copy of the whole ring shows in one piece, and that is what
stands in one piece in the last `capacity` bytes of the stream. -/
theorem contains_iff_copied (writes : List Bytes) (needle : Bytes) (out : Buffer capacity) :
    let ring := writes.foldl write empty
    let copy := ring.copyTo out
    let copied := copy.2.bytes.take copy.1
    (ring.contains needle = true ↔ needle <:+: copied) ∧
    copied = writes.flatten.drop (writes.flatten.length - capacity) := by
  intro ring copy copied
  have whole : ring = empty.write writes.flatten := writes_eq_write writes empty
  have holds : ring.Holds writes.flatten := whole ▸ write_holds empty_holds writes.flatten
  have content : copied = ring.content := copyTo_content ring holds.safe.length out
  have start : writes.flatten.length - ring.length = writes.flatten.length - capacity := by
    have length := holds.length
    omega
  rw [content]
  refine ⟨contains_iff_content, ?_⟩
  rw [holds.content, start]

end KernelAbi.Log.Ring
