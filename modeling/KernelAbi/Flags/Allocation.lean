import KernelAbi.Flags

/-! The flags of an allocation request. -/
namespace KernelAbi
namespace Allocation

def mayStartIo : BitVec 32 := 1 <<< 6
def mayEnterFilesystem : BitVec 32 := 1 <<< 7
def zeroed : BitVec 32 := 1 <<< 8
def mayReclaim : BitVec 32 := 1 <<< 10 ||| 1 <<< 11

/-- What an ordinary request of the kernel for itself allows. -/
def ordinary : BitVec 32 := mayReclaim ||| mayStartIo ||| mayEnterFilesystem

def vocabulary : Vocabulary 32 where
  label := "GfpFlags"
  masks := [
    ⟨"IO", mayStartIo⟩,
    ⟨"FS", mayEnterFilesystem⟩,
    ⟨"ZERO", zeroed⟩,
    ⟨"RECLAIM", mayReclaim⟩,
    ⟨"KERNEL", ordinary⟩]

end Allocation

abbrev AllocationFlags := Flags Allocation.vocabulary

end KernelAbi
