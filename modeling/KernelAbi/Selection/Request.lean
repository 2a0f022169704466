import KernelAbi.Selection.Resolve
import KernelAbi.Version.Release

/-! Requests for a selection: a stated kernel or the build's own, and decisions that are set by hand. -/
namespace KernelAbi.Selection

/-- Decisions that replace those of a selection. -/
structure Patch where
  hisilicon : Option Bool := none
  access : Option AccessForm := none
  signal : Option SignalForm := none
  notify : Option NotifyForm := none
  close : Option CloseForm := none
  stringCopy : Option StringCopyForm := none
  fileIo : Option FileIoForm := none
  fileInode : Option Supplier := none
  selinuxInode : Option Supplier := none
  selinuxCred : Option Supplier := none
  bitmaps : Option Supplier := none
  groupSort : Option Supplier := none
  inodeLock : Option Supplier := none
  growth : Option Supplier := none
  initKeyring : Option Bool := none
  hooks : Option HookSet := none
  hookForm : Option HookForm := none
deriving DecidableEq, Repr

/-- Version and flags stay those of the kernel. -/
def Patch.apply (p : Patch) (s : Selection) : Selection where
  version := s.version
  flags := s.flags
  hisilicon := p.hisilicon.getD s.hisilicon
  access := p.access.getD s.access
  signal := p.signal.getD s.signal
  notify := p.notify.getD s.notify
  close := p.close.getD s.close
  stringCopy := p.stringCopy.getD s.stringCopy
  fileIo := p.fileIo.getD s.fileIo
  fileInode := p.fileInode.getD s.fileInode
  selinuxInode := p.selinuxInode.getD s.selinuxInode
  selinuxCred := p.selinuxCred.getD s.selinuxCred
  bitmaps := p.bitmaps.getD s.bitmaps
  groupSort := p.groupSort.getD s.groupSort
  inodeLock := p.inodeLock.getD s.inodeLock
  growth := p.growth.getD s.growth
  initKeyring := p.initKeyring.getD s.initKeyring
  hooks := p.hooks.getD s.hooks
  hookForm := p.hookForm.getD s.hookForm

inductive Target where
  /-- The kernel that the module is built for. -/
  | build
  | kernel (version : Version.Statement) (flags : VendorFlags)
deriving DecidableEq, Repr

structure Request where
  target : Target
  patch : Patch := {}
deriving DecidableEq, Repr

inductive RequestError where
  | badVersion
  | forbidden (error : Forbidden)
deriving DecidableEq, Repr

def Target.selection : Target → Except RequestError Selection
  | .build => .ok Selection.build
  | .kernel version flags =>
    match version.version? with
    | none => .error .badVersion
    | some v => (resolve v flags).mapError .forbidden

def Request.selection (r : Request) : Except RequestError Selection :=
  r.target.selection.map r.patch.apply

end KernelAbi.Selection
