/-
PinBridge/Text/Blank.lean

The characters with the Unicode property White_Space.
-/
namespace PinBridge.Text

/-- The ranges of White_Space, first and last character of each. -/
def blankRanges : List (Nat × Nat) :=
  [(0x0009, 0x000D), (0x0020, 0x0020), (0x0085, 0x0085), (0x00A0, 0x00A0), (0x1680, 0x1680),
    (0x2000, 0x200A), (0x2028, 0x2029), (0x202F, 0x202F), (0x205F, 0x205F), (0x3000, 0x3000)]

/-- Whether a character has the property White_Space. -/
def isBlank (c : Char) : Bool :=
  blankRanges.any fun (first, last) => first ≤ c.toNat && c.toNat ≤ last

/-- There are 25 such characters. -/
example : (blankRanges.map fun (first, last) => last + 1 - first).sum = 25 := rfl

end PinBridge.Text
