import KernelAbi.Version

/-! Release texts such as `4.14.190-perf+`. Two numbers with a point between them are needed. A point
directly after the second number promises a third; whatever follows the numbers is the vendor's own
and is not read. -/
namespace KernelAbi.Version

/-- No number of a release text exceeds this. -/
def largestNumber : UInt32 := 0xFFFF

/-- Reads the digits at the front onto `value` and gives what follows them. Reading stops at the
first digit that takes the value above `largestNumber`, hence no run of digits overflows. -/
def digits? (value : UInt32) : List Char → Option (UInt32 × List Char)
  | [] => some (value, [])
  | c :: rest =>
    if c.isDigit then
      let value := value * 10 + (c.val - '0'.val)
      if value > largestNumber then none else digits? value rest
    else some (value, c :: rest)

/-- A number has at least one digit. -/
def number? : List Char → Option (UInt32 × List Char)
  | [] => none
  | c :: rest => if c.isDigit then digits? 0 (c :: rest) else none

/-- The point and the number after it. -/
def pointNumber? : List Char → Option (UInt32 × List Char)
  | '.' :: rest => number? rest
  | _ => none

def ofReleaseChars? (release : List Char) : Option Version := do
  let (major, rest) ← number? release
  let (minor, rest) ← pointNumber? rest
  if major > 255 ∨ minor > 255 then none
  else match rest with
    | '.' :: _ => do
      let (patch, _) ← pointNumber? rest
      return make major.toUInt8 minor.toUInt8 patch
    | _ => return make major.toUInt8 minor.toUInt8 0

def ofRelease? (release : String) : Option Version := ofReleaseChars? release.toList

/-- The ways in which a version may be stated. -/
inductive Statement where
  | release (text : String)
  | code (packed : UInt32)
  | parts (major minor : UInt8) (patch : UInt32)
deriving DecidableEq, Repr

def Statement.version? : Statement → Option Version
  | release text => ofRelease? text
  | code packed => some (ofCode packed)
  | parts major minor patch => some (make major minor patch)

end KernelAbi.Version
