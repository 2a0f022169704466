import KernelAbi.Flags.Allocation

/-! What the allocator grants. A request of `limit` bytes or more fails. Memory that was not asked for
as zeroed carries the allocator's poison. -/
namespace KernelAbi.Memory

/-- Two to the fiftieth power. -/
def limit : Nat := 0x4000000000000

def poison : UInt8 := 0x5a

def Granted (bytes : Nat) : Prop := bytes < limit

instance (bytes : Nat) : Decidable (Granted bytes) := inferInstanceAs (Decidable (bytes < limit))

/-- The content of a fresh byte. -/
def freshByte (flags : AllocationFlags) : UInt8 := if flags.has Allocation.zeroed then 0 else poison

/-- The content of a fresh word of eight bytes. -/
def freshWord (flags : AllocationFlags) : BitVec 64 :=
  (List.replicate 8 (freshByte flags)).foldl (fun word byte => word <<< 8 ||| byte.toBitVec.setWidth 64) 0

end KernelAbi.Memory
