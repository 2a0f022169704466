import KernelAbi.Object

/-! The locks of inodes. One holder excludes all others; readers exclude only a holder. Taking a lock
gives a guard, and giving the guard back releases the lock. -/
namespace KernelAbi

inductive LockState where
  | free
  | held
  /-- One reader and `others` more. -/
  | shared (others : Nat)
deriving DecidableEq, Repr

/-- The lock is in other hands, or not in the caller's. -/
inductive LockError where
  | wouldBlock
  | notHeld
deriving DecidableEq, Repr

structure Guard where
  inode : Inode
deriving DecidableEq, Repr

/-- The state of the lock of each inode, by its identity. -/
abbrev LockTable := Nat → LockState

namespace LockTable

def allFree : LockTable := fun _ => .free

def set (locks : LockTable) (inode : Inode) (state : LockState) : LockTable :=
  fun id => if id = inode.id then state else locks id

/-- Readers do not count. -/
def isLocked (locks : LockTable) (inode : Inode) : Bool := locks inode.id = .held

def isFree (locks : LockTable) (inode : Inode) : Bool := locks inode.id = .free

def acquire (locks : LockTable) (inode : Inode) : Guard × LockTable :=
  (⟨inode⟩, locks.set inode .held)

def release (locks : LockTable) (guard : Guard) : LockTable := locks.set guard.inode .free

def acquireShared (locks : LockTable) (inode : Inode) : Except LockError LockTable :=
  match locks inode.id with
  | .free => .ok (locks.set inode (.shared 0))
  | .shared others => .ok (locks.set inode (.shared (others + 1)))
  | .held => .error .wouldBlock

def releaseShared (locks : LockTable) (inode : Inode) : Except LockError LockTable :=
  match locks inode.id with
  | .shared 0 => .ok (locks.set inode .free)
  | .shared (others + 1) => .ok (locks.set inode (.shared others))
  | _ => .error .notHeld

end LockTable
end KernelAbi
