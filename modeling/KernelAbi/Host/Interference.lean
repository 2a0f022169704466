import KernelAbi.Host

/-! Interference with a host. It stands between the module and a host, passes every call on, and
changes some of the answers. -/
namespace KernelAbi

structure Interference where
  /-- The keyring that the current task is said to have. -/
  sessionKeyring : Option Key := none
  /-- Keyrings are not installed, for this reason. -/
  installError : Option Errno := none
  /-- Task work is passed on and then said to have failed. -/
  taskWorkError : Option Errno := none
  /-- The count that a plain copy of a text reports when it succeeds. -/
  copyCount : Option Nat := none
  /-- Transfers pass on no more bytes than this. -/
  transferLimit : Option Nat := none
  /-- Allocations fail without being passed on. -/
  noMemory : Bool := false
deriving Repr

namespace Interference

variable {κ : Type}

def failWith (error : Option Errno) (result : Result Unit) : Result Unit :=
  match error with
  | some e => .error e
  | none => result

def countAs (count : Option Nat) : Result Nat → Result Nat
  | .ok copied => .ok (count.getD copied)
  | .error e => .error e

/-- How many of `count` bytes are passed on. -/
def share (i : Interference) (count : Nat) : Nat :=
  match i.transferLimit with
  | some limit => min limit count
  | none => count

/-- The part that was lent goes back into the buffer. -/
def rejoin {size part : Nat} (buffer : Buffer size) (filled : Filled part) : Filled size :=
  ⟨filled.result, buffer.overwrite filled.buffer.bytes⟩

def answer (i : Interference) (host : Host κ) {α : Type} : Primitive α → MachineM κ α
  | .addTaskWork task mode => return failWith i.taskWorkError (← host.call (.addTaskWork task mode))
  | .addTaskWorkFlag task notify =>
    return failWith i.taskWorkError (← host.call (.addTaskWorkFlag task notify))
  | .sessionKeyring =>
    match i.sessionKeyring with
    | some key => return some key
    | none => host.call .sessionKeyring
  | .installSessionKeyring key =>
    match i.installError with
    | some e => return .error e
    | none => host.call (.installSessionKeyring key)
  | .copyString buffer address => do
    let filled ← host.call (.copyString buffer address)
    return ⟨countAs i.copyCount filled.result, filled.buffer⟩
  | .readMoving file buffer position => do
    let moved ← host.call (.readMoving file (buffer.front (i.share buffer.bytes.length)) position)
    return ⟨rejoin buffer moved.answer, moved.position⟩
  | .readAt file position buffer => do
    let filled ← host.call (.readAt file position (buffer.front (i.share buffer.bytes.length)))
    return rejoin buffer filled
  | .writeMoving file bytes position =>
    host.call (.writeMoving file (bytes.take (i.share bytes.length)) position)
  | .writeAt file bytes position =>
    host.call (.writeAt file (bytes.take (i.share bytes.length)) position)
  | .reallocate buffer size flags =>
    if i.noMemory then return .error buffer else host.call (.reallocate buffer size flags)
  | .allocateBitmap bits flags =>
    if i.noMemory then return none else host.call (.allocateBitmap bits flags)
  | primitive => host.call primitive

def disturb (i : Interference) (host : Host κ) : Host κ := ⟨i.answer host⟩

end Interference
end KernelAbi
