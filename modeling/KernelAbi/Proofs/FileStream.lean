import KernelAbi.Proofs.Recording
import KernelAbi.Selection.Resolve
import Mathlib.Algebra.Group.Nat.Defs

/-! Streaming through the bridge. Chunks written one behind the other end up in the file as one piece, and
reads one behind the other give back the file as one piece, whatever the sizes of the pieces and whoever
moves the position. -/
namespace KernelAbi

/-- A piece to be written under a selection. -/
structure Chunk where
  selection : Selection
  bytes : Bytes

/-- A destination that is to be filled under a selection. -/
structure Room where
  selection : Selection
  size : Nat
  buffer : Buffer size

/-- A destination after a read. -/
structure Fill where
  room : Room
  filled : Filled room.size

/-- The bytes that the read brought. -/
def Fill.bytes (fill : Fill) : Bytes :=
  match fill.filled.result with
  | .ok count => fill.filled.buffer.bytes.take count
  | .error _ => []

/-- The read succeeded, and the destination is as it was behind what the read brought. -/
def Fill.Sound (fill : Fill) : Prop :=
  ∃ count, fill.filled.result = .ok count ∧ count ≤ fill.room.size ∧
    fill.filled.buffer.bytes.drop count = fill.room.buffer.bytes.drop count

namespace FileStream

structure Writing where
  results : List (Result Nat)
  position : Int64

structure Reading where
  fills : List Fill
  position : Int64
  /-- The last read brought nothing. -/
  ended : Bool

/-- Writes the chunks in turn, each where the one before it left the position. -/
def writeAll (file : File) : List Chunk → Int64 → MachineM Recorder Writing
  | [], position => return ⟨[], position⟩
  | chunk :: chunks, position => do
    let written ← chunk.selection.bridge.write file chunk.bytes position
    let rest ← writeAll file chunks written.position
    return ⟨written.answer :: rest.results, rest.position⟩

/-- Fills the rooms in turn, up to the first that nothing comes into. -/
def readAll (file : File) : List Room → Int64 → MachineM Recorder Reading
  | [], position => return ⟨[], position, false⟩
  | room :: rooms, position => do
    let moved ← room.selection.bridge.read file room.buffer position
    match moved.answer.result with
    | .ok 0 => return ⟨[⟨room, moved.answer⟩], moved.position, true⟩
    | _ =>
      let rest ← readAll file rooms moved.position
      return { rest with fills := ⟨room, moved.answer⟩ :: rest.fills }

section Position

variable {position : Int64}

/-- Where a position that is not negative stands in the file. -/
theorem offset_of_nonneg {start : Nat} (stands : position.toInt = start) :
    Recorder.offset position = .ok start := by
  have nonneg : ¬ position < 0 := by
    rw [Int64.lt_iff_toInt_lt, stands]
    simp
  have clamped : position.toNatClampNeg = start := by
    rw [← Int64.toNat_toInt, stands, Int.toNat_natCast]
  rw [Recorder.offset, if_neg nonneg, clamped]

/-- A position that stays within its type moves by what was transferred. -/
theorem advance_toInt {start count : Nat} (stands : position.toInt = start) (fits : start + count < 2 ^ 63) :
    (Recorder.advance position (.ok count)).toInt = (start + count : Nat) := by
  rw [Recorder.advance, Int64.toInt_add, stands, Int64.toInt_ofNat_of_lt (by omega)]
  rw [Int.bmod_eq_of_le (by omega) (by omega)]
  rfl

end Position

section Overwriting

/-- `data` up to `start`, with zeros where it does not reach so far. -/
def padded (data : Bytes) (start : Nat) : Bytes :=
  data.take start ++ List.replicate (start - data.length) 0

variable (data : Bytes) (start : Nat) (bytes later : Bytes)

theorem padded_length : (padded data start).length = start := by
  simp only [padded, List.length_append, List.length_take, List.length_replicate]
  omega

theorem overwriteAt_eq :
    Recorder.overwriteAt data start bytes =
      padded data start ++ bytes ++ data.drop (start + bytes.length) := by
  by_cases short : data.length < start + bytes.length
  · have front : (data ++ List.replicate (start + bytes.length - data.length) 0).take start =
        padded data start := by
      rw [List.take_append, List.take_replicate, Nat.min_eq_left (by omega), padded]
    have nothing : (Recorder.resize data (start + bytes.length)).drop (start + bytes.length) = [] :=
      List.drop_eq_nil_of_le (Nat.le_of_eq (Recorder.length_resize ..))
    simp only [Recorder.overwriteAt, if_pos short, nothing]
    rw [Recorder.resize_extends (Nat.le_of_lt short), front, List.drop_eq_nil_of_le (Nat.le_of_lt short)]
  · have reached : start - data.length = 0 := by omega
    simp only [Recorder.overwriteAt, if_neg short, padded, reached, List.replicate_zero, List.append_nil]

/-- A write at the end of `front` leaves `front` alone. -/
theorem overwriteAt_append (front tail : Bytes) :
    Recorder.overwriteAt (front ++ tail) front.length later = front ++ later ++ tail.drop later.length := by
  have reached : front.length - (front ++ tail).length = 0 := by
    rw [List.length_append]
    omega
  have whole : padded (front ++ tail) front.length = front := by
    rw [padded, reached, List.replicate_zero, List.append_nil, List.take_left]
  rw [overwriteAt_eq, whole, ← List.drop_drop, List.drop_left]

/-- Two writes, the second where the first ended, are one. -/
theorem overwriteAt_overwriteAt :
    Recorder.overwriteAt (Recorder.overwriteAt data start bytes) (start + bytes.length) later =
      Recorder.overwriteAt data start (bytes ++ later) := by
  have length : (padded data start ++ bytes).length = start + bytes.length := by
    rw [List.length_append, padded_length]
  rw [overwriteAt_eq data start bytes, ← length, overwriteAt_append, length, overwriteAt_eq, List.drop_drop,
    List.length_append, Nat.add_assoc]
  simp only [List.append_assoc]

end Overwriting

section Writing

variable {m : Machine Recorder} {position : Int64} {start : Nat} (file : File)

theorem write_step (s : Selection) (bytes : Bytes) (working : m.kernel.ioError = none)
    (stands : position.toInt = start) (fits : start + bytes.length < 2 ^ 63) :
    ∃ next after, (s.bridge.write file bytes position).run m = (⟨.ok bytes.length, next⟩, after) ∧
      next.toInt = (start + bytes.length : Nat) ∧ after.kernel.ioError = none ∧
      after.kernel.fileData = Recorder.overwriteAt m.kernel.fileData start bytes := by
  have begins : m.kernel.transferFrom position = .ok start := by
    rw [Recorder.transferFrom, working]
    exact offset_of_nonneg stands
  have written : m.kernel.write position bytes =
      (.ok bytes.length,
        { m.kernel with fileData := Recorder.overwriteAt m.kernel.fileData start bytes }) := by
    rw [Recorder.write, begins]
  have run := Recording.write_run s m file bytes position
  rw [written] at run
  exact ⟨_, _, run, advance_toInt stands fits, working, rfl⟩

theorem writeAll_cons (chunk : Chunk) (chunks : List Chunk) {next : Int64} {answer : Result Nat}
    {after : Machine Recorder}
    (first : (chunk.selection.bridge.write file chunk.bytes position).run m = (⟨answer, next⟩, after)) :
    (writeAll file (chunk :: chunks) position).run m =
      (⟨answer :: ((writeAll file chunks next).run after).1.results,
        ((writeAll file chunks next).run after).1.position⟩, ((writeAll file chunks next).run after).2) := by
  rw [writeAll, Machine.run_bind, first]
  rfl

/-- The chunks go to the file as one piece. -/
theorem writeAll_run (chunk : Chunk) (chunks : List Chunk) (working : m.kernel.ioError = none)
    (stands : position.toInt = start)
    (fits : start + ((chunk :: chunks).flatMap (·.bytes)).length < 2 ^ 63) :
    let run := (writeAll file (chunk :: chunks) position).run m
    run.1.results = (chunk :: chunks).map (fun chunk => .ok chunk.bytes.length) ∧
    run.1.position.toInt = (start + ((chunk :: chunks).flatMap (·.bytes)).length : Nat) ∧
    run.2.kernel.ioError = none ∧
    run.2.kernel.fileData =
      Recorder.overwriteAt m.kernel.fileData start ((chunk :: chunks).flatMap (·.bytes)) := by
  induction chunks generalizing chunk m position start with
  | nil =>
    have whole : [chunk].flatMap (·.bytes) = chunk.bytes := by simp
    rw [whole] at fits ⊢
    obtain ⟨next, after, run, moved, works, data⟩ :=
      write_step file chunk.selection chunk.bytes working stands fits
    rw [writeAll_cons file chunk [] run]
    exact ⟨rfl, moved, works, data⟩
  | cons second chunks ih =>
    have joined : (chunk :: second :: chunks).flatMap (·.bytes) =
        chunk.bytes ++ (second :: chunks).flatMap (·.bytes) := List.flatMap_cons
    rw [joined, List.length_append] at fits ⊢
    obtain ⟨next, after, run, moved, works, data⟩ :=
      write_step file chunk.selection chunk.bytes working stands (by omega)
    obtain ⟨results, last, working, rest⟩ := ih second works moved (by omega)
    rw [writeAll_cons file chunk (second :: chunks) run]
    refine ⟨congrArg (_ :: ·) results, ?_, working, ?_⟩
    · rw [last, Nat.add_assoc]
    · rw [rest, data, overwriteAt_overwriteAt]

end Writing

section Reading

variable {m : Machine Recorder} {position : Int64} {start : Nat} {data : Bytes} (file : File)

theorem read_step (room : Room) {found : Bytes} (working : m.kernel.ioError = none)
    (holds : m.kernel.fileData = data) (stands : position.toInt = start)
    (finds : (data.drop start).take room.size = found) (fits : start + found.length < 2 ^ 63) :
    ∃ next after, (room.selection.bridge.read file room.buffer position).run m =
        (⟨⟨.ok found.length, room.buffer.overwrite found⟩, next⟩, after) ∧
      next.toInt = (start + found.length : Nat) ∧ after.kernel.ioError = none ∧
      after.kernel.fileData = data := by
  have begins : m.kernel.transferFrom position = .ok start := by
    rw [Recorder.transferFrom, working]
    exact offset_of_nonneg stands
  have read : m.kernel.read position room.buffer = ⟨.ok found.length, room.buffer.overwrite found⟩ := by
    simp only [Recorder.read, begins, holds, finds]
  have run := Recording.read_run room.selection m file room.buffer position
  rw [read] at run
  exact ⟨_, _, run, advance_toInt stands fits, working, holds⟩

/-- What a read finds is all that the destination shows of it. -/
theorem fill_found (room : Room) {found : Bytes} (fits : found.length ≤ room.size) :
    let fill : Fill := ⟨room, ⟨.ok found.length, room.buffer.overwrite found⟩⟩
    fill.Sound ∧ fill.bytes = found := by
  have bytes := room.buffer.overwrite_bytes fits
  constructor
  · refine ⟨found.length, rfl, fits, ?_⟩
    rw [bytes, List.drop_left]
  · simp only [Fill.bytes, bytes, List.take_left]

theorem readAll_last (room : Room) (rooms : List Room) {next : Int64} {buffer : Buffer room.size}
    {after : Machine Recorder}
    (first : (room.selection.bridge.read file room.buffer position).run m = (⟨⟨.ok 0, buffer⟩, next⟩, after)) :
    (readAll file (room :: rooms) position).run m = (⟨[⟨room, ⟨.ok 0, buffer⟩⟩], next, true⟩, after) := by
  rw [readAll, Machine.run_bind, first]
  rfl

theorem readAll_more (room : Room) (rooms : List Room) {count : Nat} {next : Int64}
    {buffer : Buffer room.size} {after : Machine Recorder}
    (first : (room.selection.bridge.read file room.buffer position).run m =
      (⟨⟨.ok (count + 1), buffer⟩, next⟩, after)) :
    (readAll file (room :: rooms) position).run m =
      ({ ((readAll file rooms next).run after).1 with
          fills := ⟨room, ⟨.ok (count + 1), buffer⟩⟩ :: ((readAll file rooms next).run after).1.fills },
        ((readAll file rooms next).run after).2) := by
  rw [readAll, Machine.run_bind, first]
  rfl

/-- How a reading from `start` goes over a file that holds `data`. -/
structure Reads (data : Bytes) (start : Nat) (rooms : List Room) (reading : Reading) : Prop where
  inTurn : reading.fills.map (·.room) <+: rooms
  sound : ∀ fill ∈ reading.fills, fill.Sound
  whole : reading.ended → reading.fills.flatMap (·.bytes) = data.drop start
  position : reading.ended → reading.position.toInt = (max start data.length : Nat)
  ended : data.length - start < rooms.length → reading.ended

theorem readAll_reads (rooms : List Room) (working : m.kernel.ioError = none)
    (holds : m.kernel.fileData = data) (size : data.length < 2 ^ 63)
    (positive : ∀ room ∈ rooms, 0 < room.size) (stands : position.toInt = start) :
    let run := (readAll file rooms position).run m
    Reads data start rooms run.1 ∧ run.2.kernel.fileData = data := by
  induction rooms generalizing m position start with
  | nil =>
    have run : (readAll file [] position).run m = (⟨[], position, false⟩, m) := rfl
    rw [run]
    exact ⟨⟨List.prefix_rfl, by simp, by simp, by simp, by simp⟩, holds⟩
  | cons room rooms ih =>
    obtain ⟨wide, others⟩ := List.forall_mem_cons.mp positive
    have bound := position.toInt_lt
    obtain ⟨found, finds⟩ : ∃ found, (data.drop start).take room.size = found := ⟨_, rfl⟩
    have length : found.length = min room.size (data.length - start) := by
      rw [← finds, List.length_take, List.length_drop]
    obtain ⟨next, after, run, moved, works, same⟩ :=
      read_step file room working holds stands finds (by omega)
    have enough : found.length ≤ room.size := by omega
    obtain ⟨sound, bytes⟩ := fill_found room enough
    cases count : found.length with
    | zero =>
      have past : data.length ≤ start := by omega
      rw [count] at run moved sound bytes
      rw [readAll_last file room rooms run]
      refine ⟨⟨⟨rooms, rfl⟩, by simpa using sound, fun _ => ?_, fun _ => ?_, fun _ => rfl⟩, same⟩
      · rw [List.flatMap_singleton, bytes, List.drop_eq_nil_of_le past]
        exact List.length_eq_zero_iff.mp count
      · exact moved.trans (by omega)
    | succ count =>
      have cut : (data.drop start).take found.length = found := by
        rw [← finds, List.take_eq_take_iff, finds, length, List.length_drop]
        omega
      have split : data.drop start = found ++ data.drop (start + found.length) := by
        have parts := List.take_append_drop found.length (data.drop start)
        rw [cut, List.drop_drop] at parts
        exact parts.symm
      obtain ⟨reads, kept⟩ := ih works same others moved
      rw [count] at run sound bytes
      rw [readAll_more file room rooms run]
      refine ⟨⟨?_, ?_, ?_, ?_, ?_⟩, kept⟩
      · exact List.prefix_cons_inj room |>.mpr reads.inTurn
      · exact List.forall_mem_cons.mpr ⟨sound, reads.sound⟩
      · intro ended
        rw [List.flatMap_cons, bytes, reads.whole ended, split]
      · intro ended
        rw [reads.position ended]
        omega
      · intro enough
        rw [List.length_cons] at enough
        exact reads.ended (by omega)

end Reading

/-- Chunks written from `p` on leave the file as one write of all their bytes would, and each write reports
its chunk. A reading from `q` on then gives all that is there behind `q`, in turn and once, and ends where
the file does. The selection may change with every chunk and every read. -/
theorem write_read_stream (file : File) {m : Machine Recorder} (working : m.kernel.ioError = none)
    (size : m.kernel.fileData.length < 2 ^ 63) {p q : Int64} (nonneg : 0 ≤ p) (nonneg' : 0 ≤ q)
    {chunks : List Chunk} (filled : chunks ≠ [])
    (fits : p.toNatClampNeg + (chunks.flatMap (·.bytes)).length < 2 ^ 63)
    {rooms : List Room} (positive : ∀ room ∈ rooms, 0 < room.size) :
    let start := p.toNatClampNeg
    let old := m.kernel.fileData
    let bytes := chunks.flatMap (·.bytes)
    let written := (writeAll file chunks p).run m
    let data := written.2.kernel.fileData
    let read := (readAll file rooms q).run written.2
    written.1.results = chunks.map (fun chunk => .ok chunk.bytes.length) ∧
    written.1.position.toInt = (start + bytes.length : Nat) ∧
    data = padded old start ++ bytes ++ old.drop (start + bytes.length) ∧
    Reads data q.toNatClampNeg rooms read.1 ∧ read.2.kernel.fileData = data := by
  intro start old bytes written data read
  have standing {position : Int64} (nonneg : 0 ≤ position) :
      position.toInt = (position.toNatClampNeg : Nat) := by
    have positive : 0 ≤ position.toInt := Int64.le_iff_toInt_le.mp nonneg
    rw [← Int64.toNat_toInt, Int.toNat_of_nonneg positive]
  obtain ⟨chunk, chunks, rfl⟩ := List.exists_cons_of_ne_nil filled
  obtain ⟨results, position, works, content⟩ :=
    writeAll_run file chunk chunks working (standing nonneg) fits
  have content : data = padded old start ++ bytes ++ old.drop (start + bytes.length) :=
    content.trans (overwriteAt_eq old start bytes)
  have holds : data.length < 2 ^ 63 := by
    have before : old.length < 2 ^ 63 := size
    have reach : start + bytes.length < 2 ^ 63 := fits
    rw [content, List.length_append, List.length_append, padded_length, List.length_drop]
    omega
  exact ⟨results, position, content, readAll_reads file rooms works rfl holds positive (standing nonneg')⟩

/-- Three chunks behind the end of the file, one of them empty, under kernels of two kinds. The bytes are
read from the gap on, and the third read ends the reading. -/
theorem write_read_stream_gap :
    let recent := Selection.of (.make 6 12 0) .empty
    let old := Selection.of (.make 4 9 0) .empty
    let file := File.onInode ⟨0, 0, none, .shared⟩ 0
    let m : Machine Recorder := { kernel := { fileData := [1, 2] } }
    let chunks : List Chunk := [⟨old, [7, 8]⟩, ⟨recent, []⟩, ⟨recent, [9]⟩]
    let rooms : List Room := [⟨recent, 3, .filled 3 0xff⟩, ⟨old, 4, .filled 4 0xff⟩, ⟨old, 4, .filled 4 0xff⟩,
      ⟨recent, 1, .filled 1 0xff⟩, ⟨recent, 1, .filled 1 0xff⟩, ⟨recent, 1, .filled 1 0xff⟩]
    let written := (writeAll file chunks 3).run m
    let read := (readAll file rooms 1).run written.2
    written.1.position.toInt = 6 ∧ written.2.kernel.fileData = [1, 2, 0, 7, 8, 9] ∧
    read.1.ended ∧ read.1.fills.flatMap (·.bytes) = [2, 0, 7, 8, 9] ∧ read.1.position.toInt = 6 := by
  intro recent old file m chunks rooms written read
  have working : m.kernel.ioError = none := rfl
  have size : m.kernel.fileData.length < 2 ^ 63 := by decide
  have nonneg : (0 : Int64) ≤ 3 := by decide
  have nonneg' : (0 : Int64) ≤ 1 := by decide
  have filled : chunks ≠ [] := by simp [chunks]
  have fits : (3 : Int64).toNatClampNeg + (chunks.flatMap (·.bytes)).length < 2 ^ 63 := by decide
  have positive : ∀ room ∈ rooms, 0 < room.size := by decide
  obtain ⟨-, position, content, reads, -⟩ :=
    write_read_stream file working size nonneg nonneg' filled fits positive
  have shape : padded m.kernel.fileData 3 ++ chunks.flatMap (·.bytes) ++ m.kernel.fileData.drop 6 =
      [1, 2, 0, 7, 8, 9] := by decide
  have content : written.2.kernel.fileData = [1, 2, 0, 7, 8, 9] := content.trans shape
  have reads : Reads written.2.kernel.fileData 1 rooms read.1 := reads
  have position : written.1.position.toInt = 6 := position
  clear_value written read
  rw [content] at reads
  have ended : read.1.ended := reads.ended (by decide)
  exact ⟨position, content, ended, reads.whole ended, reads.position ended⟩

end FileStream
end KernelAbi
