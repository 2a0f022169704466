import KernelAbi.Proofs.FileStream
import Mathlib.Algebra.Group.Int.Defs

/-! The bounds of a transfer. One that fails names the host's error, or else the negative position, and
leaves everything as it was. One that succeeds moves the position by what it reports. The sum is exact: a
read stops at the end of the file, so it goes no further than a position can, whoever moves the position. -/
namespace KernelAbi

namespace Recorder

/-- A transfer at the position fails for this reason. An error of the host itself is found first. -/
def Refuses (r : Recorder) (position : Int64) (e : Errno) : Prop :=
  r.ioError = some e ∨ r.ioError = none ∧ position < 0 ∧ e = .einval

/-- The file can be extended to the end of the bytes, if they are written at all. -/
def CanHold (r : Recorder) (position : Int64) (bytes : Bytes) : Prop :=
  r.ioError = none → 0 ≤ position → position.toInt + bytes.length < 2 ^ 63

/-- The result of a transfer from `position`, and where it leaves the position. -/
structure Accounts (r : Recorder) (position : Int64) (result : Result Nat) (next : Int64) : Prop where
  fails : ∀ e, result = .error e ↔ r.Refuses position e
  stays : ∀ e, result = .error e → next = position
  moves : ∀ count, result = .ok count → next.toInt = position.toInt + count

section Beginning

variable (r : Recorder) {position : Int64}

theorem transferFrom_eq_error_iff (e : Errno) :
    r.transferFrom position = .error e ↔ r.Refuses position e := by
  unfold Refuses
  cases failing : r.ioError with
  | some own => simp [transferFrom, outcome, failing]
  | none =>
    by_cases negative : position < 0
    · simp [transferFrom, outcome, failing, offset, negative, eq_comm]
    · simp [transferFrom, outcome, failing, offset, negative]

/-- A transfer that takes place starts where the position stands. -/
theorem begins_of_transferFrom {start : Nat} (begins : r.transferFrom position = .ok start) :
    r.ioError = none ∧ 0 ≤ position ∧ position.toInt = start := by
  have admitted (e : Errno) : ¬ r.Refuses position e := by
    intro refused
    have fails := (r.transferFrom_eq_error_iff e).mpr refused
    rw [begins] at fails
    contradiction
  have working : r.ioError = none := by
    cases failing : r.ioError with
    | none => rfl
    | some own => exact absurd (.inl failing) (admitted own)
  have nonneg : 0 ≤ position.toInt := by
    apply Int.not_lt.mp
    intro negative
    exact admitted .einval (.inr ⟨working, Int64.lt_iff_toInt_lt.mpr negative, rfl⟩)
  have stands : position.toInt = position.toInt.toNat := (Int.toNat_of_nonneg nonneg).symm
  have same : r.transferFrom position = .ok position.toInt.toNat := by
    simp only [transferFrom, outcome, working]
    exact FileStream.offset_of_nonneg stands
  obtain rfl : position.toInt.toNat = start := Except.ok.inj (same.symm.trans begins)
  exact ⟨working, Int64.le_iff_toInt_le.mpr nonneg, stands⟩

/-- A transfer that succeeds has taken place. -/
theorem begins_of_map {count : Nat → Nat} {moved : Nat}
    (succeeded : (r.transferFrom position).map count = .ok moved) :
    ∃ start, r.transferFrom position = .ok start ∧ count start = moved := by
  cases begins : r.transferFrom position with
  | error e =>
    rw [begins] at succeeded
    contradiction
  | ok start =>
    rw [begins] at succeeded
    exact ⟨start, rfl, Except.ok.inj succeeded⟩

/-- Any transfer that reports `count` bytes, as long as they end within the range of positions. -/
theorem accounts_map {count : Nat → Nat} {result : Result Nat}
    (reported : result = (r.transferFrom position).map count)
    (fits : ∀ start, r.transferFrom position = .ok start → start + count start < 2 ^ 63) :
    r.Accounts position result (advance position result) := by
  cases begins : r.transferFrom position with
  | error own =>
    obtain rfl : result = .error own := by rw [reported, begins]; rfl
    refine ⟨fun e => ?_, fun _ _ => rfl, fun _ impossible => by contradiction⟩
    rw [← r.transferFrom_eq_error_iff, begins]
  | ok start =>
    obtain rfl : result = .ok (count start) := by rw [reported, begins]; rfl
    obtain ⟨-, -, stands⟩ := r.begins_of_transferFrom begins
    refine ⟨fun e => ?_, fun _ impossible => by contradiction, fun moved same => ?_⟩
    · rw [← r.transferFrom_eq_error_iff, begins]
      constructor <;> intro impossible <;> contradiction
    · obtain rfl : count start = moved := Except.ok.inj same
      rw [FileStream.advance_toInt stands (fits start begins), stands]
      rfl

end Beginning

section Reading

variable (r : Recorder) {position : Int64} {size : Nat} (buffer : Buffer size)

/-- The bytes of the file behind `start` that come into a destination. -/
def available (start size : Nat) : Nat := min size (r.fileData.length - min start r.fileData.length)

theorem available_le (start size : Nat) : r.available start size ≤ size := Nat.min_le_left _ _

/-- A read from behind the end of the file goes nowhere. -/
theorem available_reach (start size : Nat) :
    start + r.available start size ≤ max start r.fileData.length := by
  unfold available
  omega

theorem read_result : (r.read position buffer).result =
    (r.transferFrom position).map fun start => r.available start size := by
  unfold read
  cases r.transferFrom position with
  | error e => rfl
  | ok start =>
    have length : ((r.fileData.drop start).take size).length = r.available start size := by
      rw [List.length_take, List.length_drop, available]
      omega
    exact congrArg Except.ok length

theorem read_accounts (held : r.fileData.length < 2 ^ 63) :
    r.Accounts position (r.read position buffer).result
      (advance position (r.read position buffer).result) := by
  apply r.accounts_map (r.read_result buffer)
  intro start begins
  obtain ⟨-, -, stands⟩ := r.begins_of_transferFrom begins
  have reach := r.available_reach start size
  have bound := position.toInt_lt
  omega

theorem read_moves {count : Nat} (succeeded : (r.read position buffer).result = .ok count) :
    ∃ start : Nat, position.toInt = start ∧ count = r.available start size := by
  obtain ⟨start, begins, rfl⟩ := r.begins_of_map ((r.read_result buffer).symm.trans succeeded)
  obtain ⟨-, -, stands⟩ := r.begins_of_transferFrom begins
  exact ⟨start, stands, rfl⟩

theorem read_failed {e : Errno} (failed : (r.read position buffer).result = .error e) :
    (r.read position buffer).buffer = buffer := by
  unfold read at failed ⊢
  cases begins : r.transferFrom position with
  | error own => rfl
  | ok start =>
    rw [begins] at failed
    contradiction

end Reading

section Writing

variable (r : Recorder) {position : Int64} (bytes : Bytes)

theorem write_result :
    (r.write position bytes).1 = (r.transferFrom position).map fun _ => bytes.length := by
  unfold write
  cases r.transferFrom position <;> rfl

theorem write_accounts (holds : r.CanHold position bytes) :
    r.Accounts position (r.write position bytes).1 (advance position (r.write position bytes).1) := by
  apply r.accounts_map (r.write_result bytes)
  intro start begins
  obtain ⟨working, nonneg, stands⟩ := r.begins_of_transferFrom begins
  have reach := holds working nonneg
  omega

theorem write_moves {count : Nat} (succeeded : (r.write position bytes).1 = .ok count) :
    count = bytes.length := by
  obtain ⟨-, -, rfl⟩ := r.begins_of_map ((r.write_result bytes).symm.trans succeeded)
  rfl

theorem write_failed {e : Errno} (failed : (r.write position bytes).1 = .error e) :
    (r.write position bytes).2 = r := by
  unfold write at failed ⊢
  cases begins : r.transferFrom position with
  | error own => rfl
  | ok start =>
    rw [begins] at failed
    contradiction

end Writing

end Recorder

namespace TransferBounds

variable (s : Selection) (m : Machine Recorder) (file : File) (position : Int64)

/-- Reads and writes through the bridge, at any position and under any selection, of a file that can be held
in memory. A read leaves nothing behind but its call, and so does a write that fails; a read that fails leaves
the destination as well. -/
theorem transfer_bounded (held : m.kernel.fileData.length < 2 ^ 63) :
    (∀ {size : Nat} (buffer : Buffer size),
      let read := (s.bridge.read file buffer position).run m
      m.kernel.Accounts position read.1.answer.result read.1.position ∧
      read.2 = m.recording [s.readCall size position] ∧
      (∀ e, read.1.answer.result = .error e → read.1.answer.buffer = buffer) ∧
      ∀ count, read.1.answer.result = .ok count → ∃ start : Nat, position.toInt = start ∧
        count = min size (m.kernel.fileData.length - min start m.kernel.fileData.length) ∧ count ≤ size ∧
        read.1.position.toInt ≤ (max start m.kernel.fileData.length : Nat)) ∧
    ∀ bytes, m.kernel.CanHold position bytes →
      let write := (s.bridge.write file bytes position).run m
      m.kernel.Accounts position write.1.answer write.1.position ∧
      (∀ e, write.1.answer = .error e → write.2 = m.recording [s.writeCall bytes.length position]) ∧
      ∀ count, write.1.answer = .ok count → count = bytes.length := by
  refine ⟨fun {size} buffer => ?_, fun bytes holds => ?_⟩
  · intro read
    have run : read = _ := Recording.read_run s m file buffer position
    have accounts : m.kernel.Accounts position _ _ := m.kernel.read_accounts buffer held
    rw [run]
    refine ⟨accounts, rfl, fun e failed => m.kernel.read_failed buffer failed, fun count succeeded => ?_⟩
    have moved := accounts.moves count succeeded
    obtain ⟨start, stands, rfl⟩ := m.kernel.read_moves buffer succeeded
    have reach := m.kernel.available_reach start size
    refine ⟨start, stands, rfl, m.kernel.available_le start size, ?_⟩
    calc
      _ = position.toInt + m.kernel.available start size := moved
      _ ≤ (max start m.kernel.fileData.length : Nat) := by omega
  · intro write
    have run : write = _ := Recording.write_run s m file bytes position
    rw [run]
    refine ⟨m.kernel.write_accounts bytes holds, fun e failed => ?_, fun count succeeded => ?_⟩
    · rw [m.kernel.write_failed bytes failed]
    · exact m.kernel.write_moves bytes succeeded

/-- A kernel that leaves the position to the module. The last position there is lies behind the end of the
file, so a read from it stays there; a read across the end stops at it, and a write goes past it. -/
theorem transfer_bounded_last :
    let s := Selection.of (.make 4 9 0) .empty
    let file := File.onInode ⟨0, 0, none, .shared⟩ 0
    let m : Machine Recorder := { kernel := { fileData := [1, 2, 3, 4, 5] } }
    let last : Int64 := 9223372036854775807
    let buffer : Buffer 4 := .filled 4 0xff
    let atLast := ((s.bridge.read file buffer last).run m).1
    let atEnd := ((s.bridge.read file buffer 3).run m).1
    let write := ((s.bridge.write file [7, 8, 9] 3).run m).1
    m.kernel.fileData.length < 2 ^ 63 ∧ m.kernel.CanHold 3 [7, 8, 9] ∧
    atLast.answer.result = .ok 0 ∧ atLast.position.toInt = 2 ^ 63 - 1 ∧
    atEnd.answer.result = .ok 2 ∧ atEnd.position.toInt = 5 ∧
    write.answer = .ok 3 ∧ write.position.toInt = 6 := by
  intro s file m last buffer atLast atEnd write
  have held : m.kernel.fileData.length < 2 ^ 63 := by decide
  have holds : m.kernel.CanHold 3 [7, 8, 9] := fun _ _ => by decide
  obtain ⟨lastRead, -⟩ := transfer_bounded s m file last held
  obtain ⟨endRead, written⟩ := transfer_bounded s m file 3 held
  have nothing : atLast.answer.result = .ok 0 := rfl
  have two : atEnd.answer.result = .ok 2 := rfl
  have three : write.answer = .ok 3 := rfl
  exact ⟨held, holds, nothing, (lastRead buffer).1.moves 0 nothing, two, (endRead buffer).1.moves 2 two,
    three, (written [7, 8, 9] holds).1.moves 3 three⟩

end TransferBounds
end KernelAbi
