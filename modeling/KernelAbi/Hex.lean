/-! Hexadecimal numerals in their shortest form: the mark `0x`, then the significant digits in lower
case, and a single zero for zero. -/
namespace KernelAbi.Hex

def digits (n : Nat) : List Char := Nat.toDigits 16 n

def numeral (n : Nat) : String := "0x" ++ String.ofList (digits n)

end KernelAbi.Hex
