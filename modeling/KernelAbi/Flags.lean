import KernelAbi.Hex

/-! Words of named flags. A vocabulary names some masks of a word; a word may carry bits that no name
covers, and they are kept by every operation that does not say otherwise. -/
namespace KernelAbi

structure Mask (width : Nat) where
  name : String
  bits : BitVec width
deriving DecidableEq, Repr

/-- The masks are in order of declaration, and may overlap. -/
structure Vocabulary (width : Nat) where
  label : String
  masks : List (Mask width)

namespace Vocabulary

variable {width : Nat}

/-- The bits that belong to some mask. -/
def known (V : Vocabulary width) : BitVec width :=
  V.masks.foldl (fun known mask => known ||| mask.bits) 0

def mask? (V : Vocabulary width) (name : String) : Option (Mask width) :=
  V.masks.find? (·.name = name)

end Vocabulary

structure Flags {width : Nat} (V : Vocabulary width) where
  bits : BitVec width
deriving DecidableEq, Repr

namespace Flags

variable {width : Nat} {V : Vocabulary width}

def empty : Flags V := ⟨0⟩

/-- Every bit of `mask` is set. -/
def has (f : Flags V) (mask : BitVec width) : Bool := f.bits &&& mask == mask

/-- Some bit of `mask` is set. -/
def meets (f : Flags V) (mask : BitVec width) : Bool := f.bits &&& mask != 0

def isEmpty (f : Flags V) : Bool := f.bits == 0

def insert (f : Flags V) (mask : BitVec width) : Flags V := ⟨f.bits ||| mask⟩

def insertIf (f : Flags V) (mask : BitVec width) (wanted : Bool) : Flags V :=
  if wanted then f.insert mask else f

def union (f g : Flags V) : Flags V := ⟨f.bits ||| g.bits⟩
def inter (f g : Flags V) : Flags V := ⟨f.bits &&& g.bits⟩
def diff (f g : Flags V) : Flags V := ⟨f.bits &&& ~~~g.bits⟩
def symmDiff (f g : Flags V) : Flags V := ⟨f.bits ^^^ g.bits⟩

instance : Union (Flags V) := ⟨union⟩
instance : Inter (Flags V) := ⟨inter⟩
instance : SDiff (Flags V) := ⟨diff⟩
instance : HasSubset (Flags V) := ⟨fun f g => g.has f.bits = true⟩
instance (f g : Flags V) : Decidable (f ⊆ g) := inferInstanceAs (Decidable (g.has f.bits = true))

/-- Only the bits that the vocabulary knows. -/
def truncate (f : Flags V) : Flags V := ⟨f.bits &&& V.known⟩

def complement (f : Flags V) : Flags V := truncate ⟨~~~f.bits⟩

/-- Refuses words with an unknown bit. -/
def ofBits? (bits : BitVec width) : Option (Flags V) :=
  if truncate (⟨bits⟩ : Flags V) = ⟨bits⟩ then some ⟨bits⟩ else none

def hasAll (f : Flags V) : Bool := f.has V.known

/-- The union of the named masks, or the first name that the vocabulary lacks. -/
def ofNames (names : List String) : Except String (Flags V) :=
  names.foldlM (fun f name => match V.mask? name with
    | some mask => .ok (f.insert mask.bits)
    | none => .error name) empty

/-- The masks by which `word` is spelled, and the bits they leave unspelled. A mask takes part when
the word has all of it and some bit of it is still unspelled. -/
def spell (word : BitVec width) : List (Mask width) → BitVec width → List (Mask width) × BitVec width
  | [], rest => ([], rest)
  | mask :: masks, rest =>
    if word &&& mask.bits = mask.bits ∧ rest &&& mask.bits ≠ 0 then
      let (spelled, rest) := spell word masks (rest &&& ~~~mask.bits)
      (mask :: spelled, rest)
    else spell word masks rest

def spelling (f : Flags V) : List (Mask width) := (spell f.bits V.masks f.bits).1

def unspelled (f : Flags V) : BitVec width := (spell f.bits V.masks f.bits).2

/-- The names, then the unspelled bits as one numeral; the empty word is a zero. -/
def body (f : Flags V) : String :=
  if f.isEmpty then Hex.numeral 0
  else
    let rest := if f.unspelled = 0 then [] else [Hex.numeral f.unspelled.toNat]
    " | ".intercalate (f.spelling.map (·.name) ++ rest)

def text (f : Flags V) : String := V.label ++ "(" ++ f.body ++ ")"

end Flags
end KernelAbi
