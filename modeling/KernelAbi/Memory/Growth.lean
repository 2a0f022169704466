import KernelAbi.Log.Line
import KernelAbi.Memory.Buffer
import KernelAbi.Memory.Request

/-! Growing a buffer. The caller states how many bytes are live. Nothing is done when that is enough;
otherwise the live bytes move into a new buffer. On failure the caller gets its own buffer back. -/
namespace KernelAbi.Memory

def grow (buffer : Bytes) (live wanted : UInt64) (flags : AllocationFlags) :
    StateM Log (Except Bytes Bytes) := do
  if wanted ≤ live then return .ok buffer
  if ¬ Granted wanted.toNat then
    modify (·.print ⟨.warning, "(Compat) kvrealloc: sem memoria, newsize=", some wanted⟩)
    return .error buffer
  let kept := buffer.take live.toNat
  return .ok (kept ++ List.replicate (wanted.toNat - kept.length) (freshByte flags))

end KernelAbi.Memory
