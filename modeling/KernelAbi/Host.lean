import KernelAbi.Errno
import KernelAbi.Machine
import KernelAbi.Memory.Bitmap
import KernelAbi.Memory.Buffer

/-! What the module asks of the kernel under it. A primitive stands here in every form that it has had,
and a host answers those that its kernel has. -/
namespace KernelAbi

abbrev Result (α : Type) := Except Errno α

/-- The destination after a copy, and how many bytes the copy reports or why it failed. -/
structure Filled (size : Nat) where
  result : Result Nat
  buffer : Buffer size
deriving Repr

/-- The answer of a transfer, and where it leaves the file's position. -/
structure Moved (α : Type) where
  answer : α
  position : Int64
deriving Repr

inductive Primitive : Type → Type where
  | accessOk (address size : UInt64) : Primitive Bool
  | accessOkTyped (kind : AccessKind) (address size : UInt64) : Primitive Bool
  | currentTask : Primitive Task
  | forceSignal (signal : Int32) : Primitive Unit
  | forceSignalTo (signal : Int32) (task : Task) : Primitive Unit
  | addTaskWork (task : Task) (mode : NotifyMode) : Primitive (Result Unit)
  | addTaskWorkFlag (task : Task) (notify : Bool) : Primitive (Result Unit)
  | currentFiles : Primitive FileTable
  | closeFd (fd : UInt32) : Primitive (Result Unit)
  | closeFdIn (files : FileTable) (fd : UInt32) : Primitive (Result Unit)
  | fileInode (file : File) : Primitive (Option Inode)
  | selinuxInode (inode : Inode) : Primitive (Option InodeSecurity)
  | selinuxCred (cred : Cred) : Primitive (Option TaskSecurity)
  | initSessionKeyring : Primitive (Option Key)
  /-- Counts the terminator. A text cut short ends in a terminator all the same. -/
  | copyStringNofault {size : Nat} (buffer : Buffer size) (address : UInt64) : Primitive (Filled size)
  /-- As `copyStringNofault`, under its earlier name. -/
  | copyStringUnsafe {size : Nat} (buffer : Buffer size) (address : UInt64) : Primitive (Filled size)
  /-- Does not count the terminator, and writes none when the text fills the buffer. -/
  | copyString {size : Nat} (buffer : Buffer size) (address : UInt64) : Primitive (Filled size)
  | openFile (path : String) (flags : Int32) (mode : UInt16) : Primitive (Result File)
  | isWorkqueueWorker : Primitive Bool
  | sessionKeyring : Primitive (Option Key)
  | installSessionKeyring (key : Key) : Primitive (Result Unit)
  | readMoving {size : Nat} (file : File) (buffer : Buffer size) (position : Int64) :
      Primitive (Moved (Filled size))
  | readAt {size : Nat} (file : File) (position : Int64) (buffer : Buffer size) : Primitive (Filled size)
  | writeMoving (file : File) (bytes : Bytes) (position : Int64) : Primitive (Moved (Result Nat))
  | writeAt (file : File) (bytes : Bytes) (position : Int64) : Primitive (Result Nat)
  /-- On failure the buffer comes back as it was. -/
  | reallocate (buffer : Bytes) (size : UInt64) (flags : AllocationFlags) : Primitive (Except Bytes Bytes)
  | allocateBitmap (bits : UInt64) (flags : AllocationFlags) : Primitive (Option Bitmap)
  | freeBitmap (bitmap : Bitmap) : Primitive Unit
  | sortGroups (ids : List UInt32) : Primitive (List UInt32)
  | lockInode (inode : Inode) : Primitive Guard
  | addHooks (hooks : List HookEntry) (count : Nat) (name : String) : Primitive Unit
  | addHooksCounted (hooks : List HookEntry) (count : Nat) : Primitive Unit

def Primitive.addsHooks {α : Type} : Primitive α → Bool
  | .addHooks .. | .addHooksCounted .. => true
  | _ => false

/-- A kernel with state `κ`. It acts on the whole machine: some primitives log, lock, or call back. -/
structure Host (κ : Type) where
  call {α : Type} : Primitive α → MachineM κ α

end KernelAbi
