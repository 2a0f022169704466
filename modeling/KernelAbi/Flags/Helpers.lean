import KernelAbi.Flags

/-! The helpers for which a module brings its own substitute, summed up in one byte. -/
namespace KernelAbi
namespace Helpers

def fileInode : BitVec 8 := 1 <<< 0
def selinuxInode : BitVec 8 := 1 <<< 1
def selinuxCred : BitVec 8 := 1 <<< 2
def bitmaps : BitVec 8 := 1 <<< 3
def groupSort : BitVec 8 := 1 <<< 4
def inodeLock : BitVec 8 := 1 <<< 5
def growth : BitVec 8 := 1 <<< 6
def stringCopy : BitVec 8 := 1 <<< 7

def vocabulary : Vocabulary 8 where
  label := "LocalHelpers"
  masks := [
    ⟨"FILE_INODE", fileInode⟩,
    ⟨"SELINUX_INODE", selinuxInode⟩,
    ⟨"SELINUX_CRED", selinuxCred⟩,
    ⟨"BITMAP", bitmaps⟩,
    ⟨"GROUPS_SORT", groupSort⟩,
    ⟨"INODE_LOCK", inodeLock⟩,
    ⟨"KVREALLOC", growth⟩,
    ⟨"USER_STRNCPY", stringCopy⟩]

end Helpers

abbrev HelperSet := Flags Helpers.vocabulary

end KernelAbi
