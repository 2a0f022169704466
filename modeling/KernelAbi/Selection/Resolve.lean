import KernelAbi.Selection
import KernelAbi.Selection.Threshold

/-! From a version and its flags to a selection. Each form follows the version alone; a helper may also
be there because a vendor carried it back. One combination of flags is refused. -/
namespace KernelAbi

/-- The protections that stand beside the hypervisor driver. -/
structure Forbidden where
  culprits : VendorFlags
deriving DecidableEq, Repr

namespace Forbidden

def message (_ : Forbidden) : String :=
  "CONFIG_UH, CONFIG_KDP and CONFIG_RKP is enabled! Please disable or remove it before compile a kernel with KernelSU!"

def text (e : Forbidden) : String := "ForbiddenVendorSecurity(" ++ e.culprits.text ++ ")"

end Forbidden

/-- The vendor's read-only policy counts only within the series that have it. -/
def isHisilicon (v : Version) (f : VendorFlags) : Bool :=
  f.has Vendor.hisiliconReadOnly && Threshold.hisiliconSeries.any (·.Contains v)

namespace Selection

/-- The forbidden protections among `f`, if `f` has the hypervisor driver and any of them. -/
def forbidden? (f : VendorFlags) : Option Forbidden :=
  if f.has Vendor.hypervisorDriver && f.meets Vendor.forbiddenSecurity then
    some ⟨⟨f.bits &&& Vendor.forbiddenSecurity⟩⟩
  else none

def substituteIf (missing : Bool) : Supplier := if missing then .substitute else .kernel

def stringCopyFor (v : Version) : StringCopyForm :=
  if Threshold.nofaultCopy ≤ v then .nofault
  else if Threshold.unsafeUserCopy ≤ v then .unsafeUser
  else .substitute

def hooksFor (f : VendorFlags) : HookSet :=
  Flags.empty
    |>.insertIf Hooks.setuid (f.has Vendor.setuidHook)
    |>.insertIf Hooks.initrc (f.has Vendor.initrcHook)

/-- The selection for a kernel whose flags are not refused. -/
def of (v : Version) (f : VendorFlags) : Selection where
  version := v
  flags := f
  hisilicon := isHisilicon v f
  access := if Threshold.untypedAccess ≤ v then .untyped else .typed
  signal := if Threshold.implicitSignal ≤ v then .implicit else .explicit
  notify := if Threshold.notifyMode ≤ v then .mode else .flag
  close := if Threshold.directClose ≤ v then .direct else .inTable
  stringCopy := stringCopyFor v
  fileIo := if Threshold.movingFileIo ≤ v then .moving else .offset
  fileInode := substituteIf (v < Threshold.fileInode && !f.has Vendor.backportedFileInode)
  selinuxInode := substituteIf (v < Threshold.selinuxAccessors && !f.has Vendor.backportedSelinuxInode)
  selinuxCred := substituteIf (v < Threshold.selinuxAccessors && !f.has Vendor.backportedSelinuxCred)
  bitmaps := substituteIf (v < Threshold.bitmaps)
  groupSort := substituteIf (v < Threshold.groupSort)
  inodeLock := substituteIf (!f.has Vendor.inodeLockHelpers)
  growth := substituteIf (v < Threshold.growth)
  initKeyring := v < Threshold.keyringHidden || isHisilicon v f || f.has Vendor.allowlistWorkaround
  hooks := hooksFor f
  hookForm := if Threshold.namedHooks ≤ v then .named else .counted

def resolve (v : Version) (f : VendorFlags) : Except Forbidden Selection :=
  match forbidden? f with
  | some e => .error e
  | none => .ok (of v f)

theorem eq_of_resolve {v : Version} {f : VendorFlags} {s : Selection} (resolved : resolve v f = .ok s) :
    s = of v f := by
  unfold resolve at resolved
  split at resolved
  · contradiction
  · exact (Except.ok.inj resolved).symm

/-- Without the hypervisor driver nothing is refused. -/
theorem resolve_driverless {f : VendorFlags} (absent : f.has Vendor.hypervisorDriver = false) (v : Version) :
    resolve v f = .ok (of v f) := by
  simp [resolve, forbidden?, absent]

@[simp] theorem hooksFor_has_setuid (f : VendorFlags) :
    (hooksFor f).has Hooks.setuid = f.has Vendor.setuidHook := by
  unfold hooksFor
  cases f.has Vendor.setuidHook <;> cases f.has Vendor.initrcHook <;> rfl

@[simp] theorem hooksFor_has_initrc (f : VendorFlags) :
    (hooksFor f).has Hooks.initrc = f.has Vendor.initrcHook := by
  unfold hooksFor
  cases f.has Vendor.setuidHook <;> cases f.has Vendor.initrcHook <;> rfl

theorem hasHooks_of (v : Version) (f : VendorFlags) :
    (of v f).hasHooks = (f.has Vendor.setuidHook || f.has Vendor.initrcHook) := by
  simp only [hasHooks, of, hooksFor]
  cases f.has Vendor.setuidHook <;> cases f.has Vendor.initrcHook <;> rfl

/-- The kernel that a module is built for when nothing else is said. -/
def buildVersion : Version := .make 5 10 0

def buildFlags : VendorFlags := .empty

def build : Selection := of buildVersion buildFlags

theorem resolve_build : resolve buildVersion buildFlags = .ok build := rfl

end Selection
end KernelAbi
