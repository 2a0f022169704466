import KernelAbi.Flags

/-! What is known of a kernel beyond its version: the vendor's marks, the module's own options, and the
helpers that a vendor has carried back to an older kernel. -/
namespace KernelAbi
namespace Vendor

/-- The security database of the vendor's policy is read-only. -/
def hisiliconReadOnly : BitVec 32 := 1 <<< 0

/-- The hypervisor driver is present. -/
def hypervisorDriver : BitVec 32 := 1 <<< 1

def hypervisor : BitVec 32 := 1 <<< 2
def dataProtection : BitVec 32 := 1 <<< 3
def realtimeProtection : BitVec 32 := 1 <<< 4
def allowlistWorkaround : BitVec 32 := 1 <<< 8
def setuidHook : BitVec 32 := 1 <<< 9
def initrcHook : BitVec 32 := 1 <<< 10
def backportedFileInode : BitVec 32 := 1 <<< 16
def backportedSelinuxInode : BitVec 32 := 1 <<< 17
def backportedSelinuxCred : BitVec 32 := 1 <<< 18
def inodeLockHelpers : BitVec 32 := 1 <<< 19

/-- The protections with which the module cannot live once the hypervisor driver is there. -/
def forbiddenSecurity : BitVec 32 := hypervisor ||| dataProtection ||| realtimeProtection

/-- The flags of one bit. -/
def singles : List (Mask 32) := [
  ⟨"HISI_SELINUX_EBITMAP_RO", hisiliconReadOnly⟩,
  ⟨"SAMSUNG_UH_DRIVER_EXIST", hypervisorDriver⟩,
  ⟨"CONFIG_UH", hypervisor⟩,
  ⟨"CONFIG_KDP", dataProtection⟩,
  ⟨"CONFIG_RKP", realtimeProtection⟩,
  ⟨"ALLOWLIST_WORKAROUND", allowlistWorkaround⟩,
  ⟨"MANUAL_HOOK_AUTO_SETUID_HOOK", setuidHook⟩,
  ⟨"MANUAL_HOOK_AUTO_INITRC_HOOK", initrcHook⟩,
  ⟨"UL_HAS_FILE_INODE", backportedFileInode⟩,
  ⟨"OPTIONAL_SELINUX_INODE", backportedSelinuxInode⟩,
  ⟨"OPTIONAL_SELINUX_CRED", backportedSelinuxCred⟩,
  ⟨"HAS_INODE_LOCK_UNLOCK", inodeLockHelpers⟩]

def vocabulary : Vocabulary 32 where
  label := "VendorFlags"
  masks := singles ++ [⟨"SAMSUNG_SECURITY", forbiddenSecurity⟩]

end Vendor

abbrev VendorFlags := Flags Vendor.vocabulary

end KernelAbi
