/-
PinBridge/Text/Record.lean

The one-line text of structured values in reports and traces.

A value with named parts is written as its name and its parts in braces, a
value that wraps another as its name and the other in parentheses, a list in
brackets.  The parts come in as text.
-/
namespace PinBridge.Text

/-- A name and its named parts, such as `Point` with `x: 1, y: 2` in braces. -/
def record (name : String) (parts : List (String × String)) : String :=
  let parts := parts.map fun (key, value) => key ++ ": " ++ value
  name ++ " \x7b " ++ ", ".intercalate parts ++ " \x7d"

/-- A name and the value that it wraps, in parentheses. -/
def wrapped (name value : String) : String := name ++ "(" ++ value ++ ")"

/-- The texts of a list's items, in brackets. -/
def sequence (items : List String) : String := "[" ++ ", ".intercalate items ++ "]"

/-- A value that may be missing. -/
def optional : Option String → String
  | none => "None"
  | some value => wrapped "Some" value

end PinBridge.Text
