/-! The objects of the kernel that the module handles, with the fields that it reads. -/
namespace KernelAbi

structure InodeSecurity where
  sid : UInt32
  sclass : UInt16
deriving DecidableEq, Repr

structure TaskSecurity where
  osid : UInt32
  sid : UInt32
deriving DecidableEq, Repr

/-- Old kernels guard an inode by a mutex, newer ones by a lock that readers share. -/
inductive LockKind where
  | mutex
  | shared
deriving DecidableEq, Repr

/-- Two inodes with one `id` are one object; numbers may repeat. -/
structure Inode where
  id : Nat
  number : UInt64
  security : Option InodeSecurity
  lock : LockKind
deriving DecidableEq, Repr

/-- A file reaches its inode through its directory entry. Later kernels also keep it in the file. -/
structure File where
  entryInode : Option Inode
  inode : Option Inode
  flags : UInt32
deriving DecidableEq, Repr

/-- The file as an open of `inode` leaves it. -/
def File.onInode (inode : Inode) (flags : UInt32) : File := ⟨some inode, some inode, flags⟩

structure Cred where
  uid : UInt32
  gid : UInt32
  euid : UInt32
  egid : UInt32
  security : Option TaskSecurity := none
deriving DecidableEq, Repr

/-- Effective ids are the real ones unless set apart. -/
def Cred.of (uid gid : UInt32) : Cred := { uid, gid, euid := uid, egid := gid }

structure Task where
  pid : UInt32
deriving DecidableEq, Repr

/-- A task's table of open descriptors. -/
structure FileTable where
  handle : UInt64
deriving DecidableEq, Repr

structure Key where
  serial : Int32
deriving DecidableEq, Repr

inductive AccessKind where
  | read
  | write
deriving DecidableEq, Repr

/-- Whether queued task work interrupts the task. -/
inductive NotifyMode where
  | none
  | resume
deriving DecidableEq, Repr

namespace Groups

/-- Each group id is at most the next. -/
def isSorted : List UInt32 → Bool
  | a :: b :: ids => a ≤ b && isSorted (b :: ids)
  | _ => true

def sort (ids : List UInt32) : List UInt32 := ids.mergeSort

end Groups
end KernelAbi
