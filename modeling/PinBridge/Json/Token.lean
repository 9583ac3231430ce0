/-
PinBridge/Json/Token.lean

The tokens of JSON text.

Text is cut into marks, words, numbers and strings with blanks between them.
Blanks are the four that JSON names.  Numbers have no leading zeros, strings no
bare control characters; a token that breaks a rule makes the whole text
unreadable.
-/
import PinBridge.Json.Basic

namespace PinBridge.Json

/-- A token. -/
inductive Token where
  | openArray
  | closeArray
  | openObject
  | closeObject
  | colon
  | comma
  /-- A word or a number. -/
  | scalar (value : Json)
  /-- A string; `none` if it holds an unpaired surrogate. -/
  | string (text : Option String)
  deriving Inhabited, Repr

namespace Token

/-- The blanks of JSON. -/
def isBlank (c : Char) : Bool := c == ' ' || c == '\n' || c == '\r' || c == '\t'

/-! ### Strings -/

/-- A piece of a string: a character as it stands, or a code unit given by its number. -/
inductive Piece where
  | char (c : Char)
  | unit (n : Nat)
  deriving DecidableEq, Repr

/-- The value of a hexadecimal digit. -/
def hexValue? (c : Char) : Option Nat :=
  if '0' ≤ c ∧ c ≤ '9' then some (c.toNat - '0'.toNat)
  else if 'a' ≤ c ∧ c ≤ 'f' then some (c.toNat - 'a'.toNat + 10)
  else if 'A' ≤ c ∧ c ≤ 'F' then some (c.toNat - 'A'.toNat + 10)
  else none

/-- The code unit that four hexadecimal digits give. -/
def codeUnit? (a b c d : Char) : Option Nat := do
  return (((← hexValue? a) * 16 + (← hexValue? b)) * 16 + (← hexValue? c)) * 16 + (← hexValue? d)

/-- The character that a one-letter escape stands for. -/
def escape? : Char → Option Char
  | '"' => some '"'
  | '\\' => some '\\'
  | '/' => some '/'
  | 'b' => some '\x08'
  | 'f' => some '\x0c'
  | 'n' => some '\n'
  | 'r' => some '\r'
  | 't' => some '\t'
  | _ => none

/-- The pieces up to the closing quote, and what follows it. -/
def pieces : List Char → Option (List Piece × List Char)
  | [] => none
  | '"' :: rest => some ([], rest)
  | '\\' :: 'u' :: a :: b :: c :: d :: rest => do
    let n ← codeUnit? a b c d
    let (ps, rest) ← pieces rest
    return (.unit n :: ps, rest)
  | '\\' :: e :: rest => do
    let c ← escape? e
    let (ps, rest) ← pieces rest
    return (.char c :: ps, rest)
  | c :: rest =>
    if c.toNat < 0x20 ∨ c = '\\' then none
    else do
      let (ps, rest) ← pieces rest
      return (.char c :: ps, rest)

/-- The characters that pieces spell; none if a surrogate lacks its partner. -/
def spell : List Piece → Option (List Char)
  | [] => some []
  | .char c :: ps => (spell ps).map (c :: ·)
  | .unit n :: ps =>
    if n < 0xD800 ∨ 0xE000 ≤ n then (spell ps).map (Char.ofNat n :: ·)
    else if n < 0xDC00 then
      match ps with
      | .unit m :: ps =>
        if 0xDC00 ≤ m ∧ m < 0xE000 then
          (spell ps).map (Char.ofNat (0x10000 + (n - 0xD800) * 0x400 + (m - 0xDC00)) :: ·)
        else none
      | _ => none
    else none

/-! ### Numbers -/

/-- The digits at the front, and the rest. -/
def digits (cs : List Char) : List Char × List Char := cs.span Char.isDigit

/-- A whole part: a single zero, or digits that start with another one. -/
def wholePart? : List Char → Option (List Char × List Char)
  | '0' :: rest => some (['0'], rest)
  | cs =>
    match digits cs with
    | ([], _) => none
    | found => some found

/-- A part that starts with a mark and goes on with at least one digit, or nothing. -/
def digitsAfter? (mark : List Char) (cs : List Char) : Option (List Char × List Char) :=
  match digits cs with
  | ([], _) => none
  | (ds, rest) => some (mark ++ ds, rest)

/-- The fraction, if there is one. -/
def fraction? : List Char → Option (List Char × List Char)
  | '.' :: rest => digitsAfter? ['.'] rest
  | cs => some ([], cs)

/-- The exponent, if there is one. -/
def exponent? : List Char → Option (List Char × List Char)
  | 'e' :: '+' :: rest => digitsAfter? ['e', '+'] rest
  | 'e' :: '-' :: rest => digitsAfter? ['e', '-'] rest
  | 'e' :: rest => digitsAfter? ['e'] rest
  | 'E' :: '+' :: rest => digitsAfter? ['E', '+'] rest
  | 'E' :: '-' :: rest => digitsAfter? ['E', '-'] rest
  | 'E' :: rest => digitsAfter? ['E'] rest
  | cs => some ([], cs)

/-- The number that digits give in base ten. -/
def decimal (ds : List Char) : Nat := ds.foldl (fun n c => n * 10 + (c.toNat - '0'.toNat)) 0

/-- The number at the front; a plain natural is told from all others. -/
def number? (cs : List Char) : Option (Json × List Char) := do
  let (sign, cs) := match cs with
    | '-' :: rest => (['-'], rest)
    | _ => ([], cs)
  let (whole, cs) ← wholePart? cs
  let (fraction, cs) ← fraction? cs
  let (exponent, cs) ← exponent? cs
  if sign.isEmpty && fraction.isEmpty && exponent.isEmpty then
    return (.natural (decimal whole), cs)
  else
    return (.number (String.ofList (sign ++ whole ++ fraction ++ exponent)), cs)

/-! ### All tokens -/

/-- The token at the front of text that does not start with a blank. -/
def next? : List Char → Option (Token × List Char)
  | '[' :: rest => some (.openArray, rest)
  | ']' :: rest => some (.closeArray, rest)
  | '\x7b' :: rest => some (.openObject, rest)
  | '\x7d' :: rest => some (.closeObject, rest)
  | ':' :: rest => some (.colon, rest)
  | ',' :: rest => some (.comma, rest)
  | '"' :: rest => do
    let (ps, rest) ← pieces rest
    return (.string ((spell ps).map String.ofList), rest)
  | 'n' :: 'u' :: 'l' :: 'l' :: rest => some (.scalar .null, rest)
  | 't' :: 'r' :: 'u' :: 'e' :: rest => some (.scalar (.bool true), rest)
  | 'f' :: 'a' :: 'l' :: 's' :: 'e' :: rest => some (.scalar (.bool false), rest)
  | cs => do
    let (value, rest) ← number? cs
    return (.scalar value, rest)

/-- The tokens of a text, given at least as many steps as it has characters. -/
def scan : (steps : Nat) → List Char → Option (List Token)
  | _, [] => some []
  | 0, _ => none
  | steps + 1, c :: cs =>
    if isBlank c then scan steps cs
    else do
      let (token, rest) ← next? (c :: cs)
      let tokens ← scan steps rest
      return token :: tokens

/-- The tokens of a text; every step takes at least one character. -/
def scanText (cs : List Char) : Option (List Token) := scan cs.length cs

end Token
end PinBridge.Json
