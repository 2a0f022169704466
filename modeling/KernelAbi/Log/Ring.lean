import KernelAbi.Memory.Buffer

/-! The log's ring. The cells are written in a circle: `head` is the cell written next, and the
`length` cells before it hold the newest bytes. A full ring forgets its oldest byte. -/
namespace KernelAbi.Log

structure Ring where
  cells : Array UInt8
  head : Nat
  length : Nat
deriving DecidableEq, Repr

namespace Ring

def capacity : Nat := 4096

def empty : Ring := ⟨Array.replicate capacity 0, 0, 0⟩

def push (ring : Ring) (byte : UInt8) : Ring where
  cells := ring.cells.setIfInBounds ring.head byte
  head := (ring.head + 1) % capacity
  length := min (ring.length + 1) capacity

def write (ring : Ring) (bytes : Bytes) : Ring := bytes.foldl push ring

/-- The cell of the oldest byte. -/
def start (ring : Ring) : Nat := (ring.head + capacity - ring.length) % capacity

/-- The byte at `index`, counted from the oldest. -/
def byte (ring : Ring) (index : Nat) : UInt8 :=
  ring.cells.getD ((ring.start + index) % capacity) 0

/-- The newest bytes that fit, oldest first, and their number. -/
def copyTo {size : Nat} (ring : Ring) (out : Buffer size) : Nat × Buffer size :=
  let count := min ring.length size
  (count, out.overwrite ((List.range count).map fun i => ring.byte (ring.length - count + i)))

/-- The bytes of `needle` are those from `index` on. -/
def matchesAt (ring : Ring) (index : Nat) : Bytes → Bool
  | [] => true
  | b :: needle => ring.byte index == b && ring.matchesAt (index + 1) needle

def contains (ring : Ring) (needle : Bytes) : Bool :=
  needle.length ≤ ring.length &&
    (List.range (ring.length - needle.length + 1)).any fun index => ring.matchesAt index needle

end Ring
end KernelAbi.Log
