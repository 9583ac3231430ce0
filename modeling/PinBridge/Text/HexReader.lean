/-
PinBridge/Text/HexReader.lean

Bytes from hexadecimal digits as people write them.

Digits may be split into groups by blanks, colons and commas, and each group
may start with `0x`.  What is left must be an even number of digits.  Places
and numbers in error messages count bytes of UTF-8, so that a character beyond
ASCII counts as often as it has bytes.
-/
import PinBridge.Text.Blank
import PinBridge.Text.Quoted

namespace PinBridge.Text

/-- Why a text does not give bytes. -/
inductive HexError where
  /-- So many digits, and not all in pairs. -/
  | odd (count : Nat)
  /-- The first byte that is no digit, and its place. -/
  | badDigit (byte : UInt8) (position : Nat)
  deriving DecidableEq, Repr

namespace HexError

def message : HexError → String
  | .odd count => s!"hex input has an odd number of digits ({count})"
  | .badDigit byte position =>
    "invalid hex input: Invalid character " ++ quotedLatin byte ++ " at position " ++
      toString position

end HexError

/-- Whether a character separates groups. -/
def isSeparator (c : Char) : Bool := isBlank c || c == ':' || c == ','

/-- The runs between separators; two separators side by side have an empty run between them. -/
def groups : List Char → List (List Char)
  | [] => [[]]
  | c :: cs =>
    if isSeparator c then [] :: groups cs
    else
      match groups cs with
      | [] => [[c]]
      | group :: rest => (c :: group) :: rest

/-- A group without the mark of hexadecimal numbers that it may start with. -/
def unmarked : List Char → List Char
  | '0' :: 'x' :: rest => rest
  | '0' :: 'X' :: rest => rest
  | group => group

/-- The digits of a text, in bytes of UTF-8. -/
def digitBytes (s : String) : Bytes :=
  ((groups s.toList).flatMap unmarked).flatMap String.utf8EncodeChar

/-- The value of a digit. -/
def digitValue? (b : UInt8) : Option Nat :=
  let n := b.toNat
  if 0x30 ≤ n ∧ n ≤ 0x39 then some (n - 0x30)
  else if 0x61 ≤ n ∧ n ≤ 0x66 then some (n - 0x61 + 10)
  else if 0x41 ≤ n ∧ n ≤ 0x46 then some (n - 0x41 + 10)
  else none

/-- The value of the digit at a place. -/
def digitAt (position : Nat) (b : UInt8) : Except HexError Nat :=
  match digitValue? b with
  | some v => .ok v
  | none => .error (.badDigit b position)

/-- Read digits in pairs, the first of them at the given place. -/
def readPairs : (position : Nat) → Bytes → Except HexError Bytes
  | position, high :: low :: rest => do
    let h ← digitAt position high
    let l ← digitAt (position + 1) low
    let bytes ← readPairs (position + 2) rest
    return .ofNat (h * 16 + l) :: bytes
  | _, _ => .ok []

/-- The bytes that a text gives. -/
def readHex (s : String) : Except HexError Bytes :=
  let digits := digitBytes s
  if digits.length % 2 = 1 then .error (.odd digits.length) else readPairs 0 digits

end PinBridge.Text
