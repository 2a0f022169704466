import KernelAbi.Host
import KernelAbi.Memory.Growth
import KernelAbi.Selection

/-! The bridge between the module and a host. Each operation is one of the module's own and always has
the same form; the selection says in which form the host is asked, or that a substitute answers. An
error of the host comes back as it is, and a substitute adds none. -/
namespace KernelAbi

structure Bridge (κ : Type) where
  host : Host κ
  selection : Selection

namespace Bridge

variable {κ : Type}

def accessOk (b : Bridge κ) (address size : UInt64) : MachineM κ Bool :=
  match b.selection.access with
  | .untyped => b.host.call (.accessOk address size)
  | .typed => b.host.call (.accessOkTyped .read address size)

/-- The signal goes to the current task. -/
def forceSignal (b : Bridge κ) (signal : Int32) : MachineM κ Unit :=
  match b.selection.signal with
  | .implicit => b.host.call (.forceSignal signal)
  | .explicit => do
    let task ← b.host.call .currentTask
    b.host.call (.forceSignalTo signal task)

/-- Of the two modes the older form knows only whether the task is to be resumed. -/
def addTaskWork (b : Bridge κ) (task : Task) (mode : NotifyMode) : MachineM κ (Result Unit) :=
  match b.selection.notify with
  | .mode => b.host.call (.addTaskWork task mode)
  | .flag => b.host.call (.addTaskWorkFlag task (mode = .resume))

/-- The descriptor is one of the current task's. -/
def closeFd (b : Bridge κ) (fd : UInt32) : MachineM κ (Result Unit) :=
  match b.selection.close with
  | .direct => b.host.call (.closeFd fd)
  | .inTable => do
    let files ← b.host.call .currentFiles
    b.host.call (.closeFdIn files fd)

/-- The substitute goes through the directory entry. -/
def fileInode (b : Bridge κ) (file : File) : MachineM κ (Option Inode) :=
  match b.selection.fileInode with
  | .kernel => b.host.call (.fileInode file)
  | .substitute => return file.entryInode

def selinuxInode (b : Bridge κ) (inode : Inode) : MachineM κ (Option InodeSecurity) :=
  match b.selection.selinuxInode with
  | .kernel => b.host.call (.selinuxInode inode)
  | .substitute => return inode.security

def selinuxCred (b : Bridge κ) (cred : Cred) : MachineM κ (Option TaskSecurity) :=
  match b.selection.selinuxCred with
  | .kernel => b.host.call (.selinuxCred cred)
  | .substitute => return cred.security

def initSessionKeyring (b : Bridge κ) : MachineM κ (Option Key) :=
  if b.selection.initKeyring then b.host.call .initSessionKeyring else return none

/-- Turns the answer of a plain copy into that of a copy that counts the terminator: one more for a
text that ended within the buffer, and a terminator in the last byte for one that did not. An empty
text stays at zero. -/
def terminate {size : Nat} (filled : Filled size) : Filled size :=
  match filled.result with
  | .error e => ⟨.error e, filled.buffer⟩
  | .ok copied =>
    if size ≤ copied then ⟨.ok size, filled.buffer.set (size - 1) 0⟩
    else if 0 < copied then ⟨.ok (copied + 1), filled.buffer⟩
    else ⟨.ok copied, filled.buffer⟩

/-- The substitute for a host that has no copy of its own that does without page faults. -/
def copyStringSubstitute (host : Host κ) {size : Nat} (buffer : Buffer size) (address : UInt64) :
    MachineM κ (Filled size) := do
  if size = 0 then return ⟨.ok 0, buffer⟩
  return terminate (← host.call (.copyString buffer address))

/-- Copies a text from user memory and reports its bytes, terminator included. -/
def copyString (b : Bridge κ) {size : Nat} (buffer : Buffer size) (address : UInt64) :
    MachineM κ (Filled size) :=
  match b.selection.stringCopy with
  | .nofault => b.host.call (.copyStringNofault buffer address)
  | .unsafeUser => b.host.call (.copyStringUnsafe buffer address)
  | .substitute => copyStringSubstitute b.host buffer address

/-- Gives a worker without a session keyring that of the first process, where it can be reached. -/
def provideKeyring (b : Bridge κ) : MachineM κ (Result Unit) := do
  if ¬ b.selection.initKeyring then return .ok ()
  if ¬ (← b.host.call .isWorkqueueWorker) then return .ok ()
  if (← b.host.call .sessionKeyring).isSome then return .ok ()
  match ← b.host.call .initSessionKeyring with
  | none => return .ok ()
  | some key =>
    Machine.print ⟨.info, "(Compat) Instalando init_session_keyring, serial=",
      some key.serial.toInt64.toUInt64⟩
    b.host.call (.installSessionKeyring key)

def openFile (b : Bridge κ) (path : String) (flags : Int32) (mode : UInt16) :
    MachineM κ (Result File) := do
  match ← b.provideKeyring with
  | .error e => return .error e
  | .ok () => b.host.call (.openFile path flags mode)

/-- Where a transfer at `position` leaves it: past the bytes transferred, or where it was. -/
def positionAfter (position : Int64) : Result Nat → Int64
  | .ok count => position + .ofNat count
  | .error _ => position

def read (b : Bridge κ) (file : File) {size : Nat} (buffer : Buffer size) (position : Int64) :
    MachineM κ (Moved (Filled size)) :=
  match b.selection.fileIo with
  | .moving => b.host.call (.readMoving file buffer position)
  | .offset => do
    let filled ← b.host.call (.readAt file position buffer)
    return ⟨filled, positionAfter position filled.result⟩

def write (b : Bridge κ) (file : File) (bytes : Bytes) (position : Int64) :
    MachineM κ (Moved (Result Nat)) :=
  match b.selection.fileIo with
  | .moving => b.host.call (.writeMoving file bytes position)
  | .offset => do
    let result ← b.host.call (.writeAt file bytes position)
    return ⟨result, positionAfter position result⟩

/-- The kernel finds out by itself how many bytes are live. -/
def grow (b : Bridge κ) (buffer : Bytes) (live wanted : UInt64) (flags : AllocationFlags) :
    MachineM κ (Except Bytes Bytes) :=
  match b.selection.growth with
  | .kernel => b.host.call (.reallocate buffer wanted flags)
  | .substitute => Machine.logging (Memory.grow buffer live wanted flags)

def allocateBitmap (b : Bridge κ) (bits : UInt64) (flags : AllocationFlags) :
    MachineM κ (Option Bitmap) :=
  match b.selection.bitmaps with
  | .kernel => b.host.call (.allocateBitmap bits flags)
  | .substitute => Machine.logging (Bitmap.allocate bits flags)

def allocateClearBitmap (b : Bridge κ) (bits : UInt64) (flags : AllocationFlags) :
    MachineM κ (Option Bitmap) :=
  b.allocateBitmap bits (flags.insert Allocation.zeroed)

def freeBitmap (b : Bridge κ) (bitmap : Bitmap) : MachineM κ Unit :=
  match b.selection.bitmaps with
  | .kernel => b.host.call (.freeBitmap bitmap)
  | .substitute => return ()

/-- Kernels that do not offer the sort do it themselves when the groups are set, so the substitute
leaves them as they are. -/
def sortGroups (b : Bridge κ) (ids : List UInt32) : MachineM κ (List UInt32) :=
  match b.selection.groupSort with
  | .kernel => b.host.call (.sortGroups ids)
  | .substitute => do
    Machine.print ⟨.trace, "(Compat) groups_sort local: no-op", none⟩
    return ids

/-- A lock in other hands is refused before the host is asked: the caller would wait for ever. -/
def lockInode (b : Bridge κ) (inode : Inode) : MachineM κ (Except LockError Guard) := do
  if ¬ (← get).locks.isFree inode then return .error .wouldBlock
  match b.selection.inodeLock with
  | .kernel => return .ok (← b.host.call (.lockInode inode))
  | .substitute => return .ok (← Machine.acquire inode)

/-- Giving the guard back is the same however it was taken. -/
def unlockInode (_ : Bridge κ) (guard : Guard) : MachineM κ Unit :=
  modify fun m => { m with locks := m.locks.release guard }

end Bridge
end KernelAbi
