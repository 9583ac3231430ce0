/-
PinBridge/Text/Quoted.lean

A character between apostrophes, for error messages.

The characters of Latin-1 that show nothing are written by their number in
braces, some controls and the two marks that would confuse by a backslash and a
letter or themselves.
-/
import PinBridge.Text.Hex

namespace PinBridge.Text

/-- Whether a character of Latin-1 is a control, the soft hyphen or the unbreakable blank. -/
def isHidden (n : Nat) : Bool := n < 0x20 || (0x7F ≤ n && n ≤ 0xA0) || n == 0xAD

/-- A character of Latin-1 as it stands between apostrophes. -/
def escapedLatin (n : Nat) : String :=
  match Char.ofNat n with
  | '\x00' => "\\0"
  | '\t' => "\\t"
  | '\n' => "\\n"
  | '\r' => "\\r"
  | '\'' => "\\'"
  | '\\' => "\\\\"
  | c =>
    if isHidden n then "\\u\x7b" ++ String.ofList (Nat.toDigits 16 n) ++ "\x7d"
    else c.toString

/-- A byte as the character of Latin-1 with its number, between apostrophes. -/
def quotedLatin (b : UInt8) : String := "'" ++ escapedLatin b.toNat ++ "'"

end PinBridge.Text
