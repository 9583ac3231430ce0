/-
PinBridge/Text/Hex.lean

Numbers and bytes as hexadecimal digits, written.

Numbers in messages have capital digits and a least width; byte dumps have
small digits, two to a byte.
-/
import PinBridge.Wire.Bytes

namespace PinBridge.Text

/-- The small digit of a value below sixteen. -/
def hexDigit (n : Nat) : Char := Nat.digitChar n

/-- A number in capital digits, padded with zeros to a width. -/
def upperHex (width n : Nat) : String :=
  let digits := (Nat.toDigits 16 n).map Char.toUpper
  String.ofList (List.replicate (width - digits.length) '0' ++ digits)

/-- The two digits of a byte. -/
def hexPair (b : UInt8) : List Char := [hexDigit (b.toNat / 16), hexDigit (b.toNat % 16)]

/-- Bytes in small digits with nothing between them. -/
def hexPacked (bs : Bytes) : String := String.ofList (bs.flatMap hexPair)

/-- Bytes in small digits with one space between two bytes. -/
def hexSpaced (bs : Bytes) : String := String.ofList ([' '].intercalate (bs.map hexPair))

end PinBridge.Text
