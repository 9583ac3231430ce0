/-
PinBridge/Json/Reader.lean

Reading JSON text.

The reader takes one token after the other and keeps the containers that are
still open on a stack, so values nest to any depth.  `State` says what may come
next; a token that may not makes the text unreadable, and so does text that
ends while something is due.  A comma must be followed by a further item.
-/
import PinBridge.Json.Token

namespace PinBridge.Json

/-- A container that is still open; what it holds is kept last item first. -/
inductive Container where
  | array (items : List Json)
  | object (members : List (Option String × Json))
  /-- An object in which the value of a key is due. -/
  | member (members : List (Option String × Json)) (key : Option String)

/-- What has been read and what may come next. -/
inductive State where
  /-- A value is due. -/
  | value (stack : List Container)
  /-- A first item or the end of the array is due. -/
  | firstItem (stack : List Container)
  /-- A first key or the end of the object is due. -/
  | firstKey (members : List (Option String × Json)) (stack : List Container)
  /-- A further key is due. -/
  | nextKey (members : List (Option String × Json)) (stack : List Container)
  /-- The colon after a key is due. -/
  | colon (members : List (Option String × Json)) (key : Option String) (stack : List Container)
  /-- A comma or the end of the innermost container is due. -/
  | after (stack : List Container)
  /-- The value is complete. -/
  | complete (value : Json)

namespace State

/-- A value has been read: it goes into the innermost container. -/
def put (v : Json) : List Container → Option State
  | [] => some (.complete v)
  | .array items :: stack => some (.after (.array (v :: items) :: stack))
  | .member members key :: stack => some (.after (.object ((key, v) :: members) :: stack))
  | .object _ :: _ => none

/-- A token where a value is due. -/
def startValue (stack : List Container) : Token → Option State
  | .scalar v => put v stack
  | .string s => put (.string s) stack
  | .openArray => some (.firstItem (.array [] :: stack))
  | .openObject => some (.firstKey [] stack)
  | _ => none

/-- A key has been read, or is missing. -/
def startKey (members : List (Option String × Json)) (stack : List Container) :
    Token → Option State
  | .string key => some (.colon members key stack)
  | _ => none

/-- Take one token. -/
def step : State → Token → Option State
  | .value stack, token => startValue stack token
  | .firstItem (.array items :: stack), .closeArray => put (.array items.reverse) stack
  | .firstItem stack, token => startValue stack token
  | .firstKey members stack, .closeObject => put (.object members.reverse) stack
  | .firstKey members stack, token => startKey members stack token
  | .nextKey members stack, token => startKey members stack token
  | .colon members key stack, .colon => some (.value (.member members key :: stack))
  | .after (.array items :: stack), .comma => some (.value (.array items :: stack))
  | .after (.array items :: stack), .closeArray => put (.array items.reverse) stack
  | .after (.object members :: stack), .comma => some (.nextKey members stack)
  | .after (.object members :: stack), .closeObject => put (.object members.reverse) stack
  | _, _ => none

end State

/-- The value that tokens spell. -/
def ofTokens? (tokens : List Token) : Option Json :=
  match tokens.foldlM State.step (.value []) with
  | some (.complete v) => some v
  | _ => none

/-- The value that a text spells: one value with nothing but blanks around it. -/
def ofText? (s : String) : Option Json := (Token.scanText s.toList).bind ofTokens?

end PinBridge.Json
