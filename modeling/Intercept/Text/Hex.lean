set_option autoImplicit false

/-! # Hexadecimal text

Numbers are written in lower-case hexadecimal, alone, padded with zeros to a number of digits,
or behind a `0x` mark. -/

namespace Intercept.Text

/-- A number in hexadecimal, without leading zeros. -/
def hex (n : Nat) : String := String.ofList (Nat.toDigits 16 n)

/-- A number in hexadecimal, padded with zeros to at least `width` digits. -/
def hexPadded (width n : Nat) : String :=
  let digits := hex n
  String.ofList (List.replicate (width - digits.length) '0') ++ digits

/-- A number in hexadecimal behind `0x`, padded with zeros to at least `width` digits. -/
def hexMarked (width n : Nat) : String := "0x" ++ hexPadded width n

/-- A list in square brackets, its items separated by a comma and a blank. -/
def bracketed (items : List String) : String := "[" ++ ", ".intercalate items ++ "]"

/-- A list of bytes in square brackets, each as two hexadecimal digits. -/
def hexBytes (l : List UInt8) : String := bracketed (l.map fun b => hexPadded 2 b.toNat)

/-- A list of bytes in square brackets, each as a decimal number. -/
def decimalBytes (l : List UInt8) : String := bracketed (l.map fun b => toString b.toNat)

end Intercept.Text
