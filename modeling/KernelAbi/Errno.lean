/-! Error numbers of the host. A primitive that fails names one of them, a hook denies by returning
its negation, and zero is the only return that allows. -/
namespace KernelAbi

inductive Errno where
  | eperm | enoent | esrch | eintr | eio | ebadf | eagain | enomem
  | eacces | efault | ebusy | eexist | einval | enosys
deriving DecidableEq, Repr

namespace Errno

def all : List Errno :=
  [eperm, enoent, esrch, eintr, eio, ebadf, eagain, enomem, eacces, efault, ebusy, eexist, einval, enosys]

def code : Errno → Int32
  | eperm => 1 | enoent => 2 | esrch => 3 | eintr => 4 | eio => 5 | ebadf => 9 | eagain => 11
  | enomem => 12 | eacces => 13 | efault => 14 | ebusy => 16 | eexist => 17 | einval => 22 | enosys => 38

def symbol : Errno → String
  | eperm => "EPERM" | enoent => "ENOENT" | esrch => "ESRCH" | eintr => "EINTR" | eio => "EIO"
  | ebadf => "EBADF" | eagain => "EAGAIN" | enomem => "ENOMEM" | eacces => "EACCES" | efault => "EFAULT"
  | ebusy => "EBUSY" | eexist => "EEXIST" | einval => "EINVAL" | enosys => "ENOSYS"

theorem mem_all (e : Errno) : e ∈ all := by cases e <;> decide

/-- Unassigned numbers denote no error. -/
def ofCode? (code : Int32) : Option Errno := all.find? (·.code = code)

@[simp] theorem ofCode?_code (e : Errno) : ofCode? e.code = some e := by cases e <;> decide

/-- What a hook or system call returns to report the error. -/
def negated (e : Errno) : Int32 := -e.code

/-- Reads a return value. Negation wraps, so the least value is its own negation and denotes no error. -/
def ofReturn? (ret : Int32) : Option Errno := ofCode? (-ret)

@[simp] theorem ofReturn?_negated (e : Errno) : ofReturn? e.negated = some e := by cases e <;> decide

end Errno

/-- The return value by which a hook reports `outcome`. -/
def hookReturn : Except Errno Unit → Int32
  | .ok () => 0
  | .error e => e.negated

end KernelAbi
