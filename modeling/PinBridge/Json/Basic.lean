/-
PinBridge/Json/Basic.lean

JSON values, and how they are written.

Objects keep their members in order, repeated keys included, because a reader
of settings refuses repetitions.  A number that is a plain natural is kept as
that number; every other number is kept as it was spelled, for no field takes
one.  A string may spell unpaired surrogates and then stands for no text.
-/
namespace PinBridge

/-- A JSON value. -/
inductive Json where
  | null
  | bool (b : Bool)
  /-- A number written with digits alone. -/
  | natural (n : Nat)
  /-- A number with a sign, a fraction or an exponent, as spelled. -/
  | number (spelling : String)
  /-- A string; `none` if it holds an unpaired surrogate. -/
  | string (text : Option String)
  | array (items : List Json)
  | object (members : List (Option String × Json))
  deriving Inhabited, Repr

namespace Json

/-- A string that stands for a text. -/
def text (s : String) : Json := .string (some s)

/-- A value that may be missing, with `null` for its absence. -/
def optional {α : Type} (f : α → Json) : Option α → Json
  | none => .null
  | some a => f a

/-- An object whose keys are texts. -/
def ofFields (fields : List (String × Json)) : Json :=
  .object (fields.map fun (key, value) => (some key, value))

/-- The value of the first member with this key. -/
def field? (key : String) : Json → Option Json
  | .object members => members.lookup (some key)
  | _ => none

/-! ### Writing -/

/-- The four digits of a code unit in an escape. -/
def unitDigits (n : Nat) : List Char :=
  let digits := Nat.toDigits 16 n
  List.replicate (4 - digits.length) '0' ++ digits

/-- How a character is written inside quotes. -/
def escaped (c : Char) : List Char :=
  match c with
  | '"' => ['\\', '"']
  | '\\' => ['\\', '\\']
  | '\n' => ['\\', 'n']
  | '\r' => ['\\', 'r']
  | '\t' => ['\\', 't']
  | '\x08' => ['\\', 'b']
  | '\x0c' => ['\\', 'f']
  | c => if c.toNat < 0x20 then '\\' :: 'u' :: unitDigits c.toNat else [c]

/-- A text in quotes. -/
def quoted (s : String) : String :=
  String.ofList ('"' :: s.toList.flatMap escaped ++ ['"'])

/-- A string in quotes; one that stands for no text is written as a replacement character. -/
def quotedText : Option String → String
  | some s => quoted s
  | none => quoted "\ufffd"

mutual

/-- The value with no blanks between its tokens. -/
def render : Json → String
  | .null => "null"
  | .bool b => if b then "true" else "false"
  | .natural n => toString n
  | .number spelling => spelling
  | .string text => quotedText text
  | .array items => "[" ++ ",".intercalate (renderItems items) ++ "]"
  | .object members => "\x7b" ++ ",".intercalate (renderMembers members) ++ "\x7d"

def renderItems : List Json → List String
  | [] => []
  | item :: items => render item :: renderItems items

def renderMembers : List (Option String × Json) → List String
  | [] => []
  | (key, value) :: members => (quotedText key ++ ":" ++ render value) :: renderMembers members

end

end Json
end PinBridge
