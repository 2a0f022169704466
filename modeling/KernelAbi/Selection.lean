import KernelAbi.Flags.Helpers
import KernelAbi.Flags.Hooks
import KernelAbi.Flags.Vendor
import KernelAbi.Version

/-! Selections. A primitive of the kernel has had several forms, and some helpers have not always been
there. A selection says, for one kernel, which form of each is called and which helpers the module
supplies itself. -/
namespace KernelAbi

/-- The check of a user range, without or with the kind of access as first argument. -/
inductive AccessForm where
  | untyped
  | typed
deriving DecidableEq, Repr

/-- A forced signal goes to the current task, named or not. -/
inductive SignalForm where
  | implicit
  | explicit
deriving DecidableEq, Repr

/-- How task work states the wanted notification. -/
inductive NotifyForm where
  | mode
  | flag
deriving DecidableEq, Repr

/-- A descriptor is closed in the current table, or in a table that is named. -/
inductive CloseForm where
  | direct
  | inTable
deriving DecidableEq, Repr

inductive StringCopyForm where
  | nofault
  | unsafeUser
  | substitute
deriving DecidableEq, Repr

/-- Reads and writes move a position themselves, or take a plain offset. -/
inductive FileIoForm where
  | moving
  | offset
deriving DecidableEq, Repr

/-- Who supplies a helper. -/
inductive Supplier where
  | kernel
  | substitute
deriving DecidableEq, Repr

/-- Hooks are added with the module's name, or with their number alone. -/
inductive HookForm where
  | named
  | counted
deriving DecidableEq, Repr

structure Selection where
  version : Version
  flags : VendorFlags
  hisilicon : Bool
  access : AccessForm
  signal : SignalForm
  notify : NotifyForm
  close : CloseForm
  stringCopy : StringCopyForm
  fileIo : FileIoForm
  fileInode : Supplier
  selinuxInode : Supplier
  selinuxCred : Supplier
  bitmaps : Supplier
  groupSort : Supplier
  inodeLock : Supplier
  growth : Supplier
  /-- The session keyring of the first process is reachable from the module. -/
  initKeyring : Bool
  hooks : HookSet
  hookForm : HookForm
deriving DecidableEq, Repr

namespace Selection

/-- The helpers that the module supplies itself. -/
def substitutes (s : Selection) : HelperSet :=
  Flags.empty
    |>.insertIf Helpers.fileInode (s.fileInode = .substitute)
    |>.insertIf Helpers.selinuxInode (s.selinuxInode = .substitute)
    |>.insertIf Helpers.selinuxCred (s.selinuxCred = .substitute)
    |>.insertIf Helpers.bitmaps (s.bitmaps = .substitute)
    |>.insertIf Helpers.groupSort (s.groupSort = .substitute)
    |>.insertIf Helpers.inodeLock (s.inodeLock = .substitute)
    |>.insertIf Helpers.growth (s.growth = .substitute)
    |>.insertIf Helpers.stringCopy (s.stringCopy = .substitute)

def hasHooks (s : Selection) : Bool := !s.hooks.isEmpty

end Selection
end KernelAbi
