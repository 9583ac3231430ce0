/-
PinBridge/Proofs/Json/Rendering.lean

What is written of a value spells it.

A value that was made by a program and not read from a text holds no string
without a text, and its numbers are spelled as numbers are (`Plain`).  Such a
value is written with no blanks, and its strings with as few escapes as there
can be; that is one of the texts that spell it.

Main statement: `Plain.ofText?_render`, what is written of a plain value is read
as that value.
-/
import PinBridge.Proofs.Json.Spelling

namespace PinBridge.Json

open Token

/-! ### Texts in quotes -/

/-- The escape of a control character gives its number. -/
theorem unitDigits_spec : ∀ n < 0x20,
    unitDigits n = ['0', '0', (n / 16).digitChar, (n % 16).digitChar] ∧
      codeUnit? '0' '0' (n / 16).digitChar (n % 16).digitChar = some n := by
  decide

/-- A number below the surrogates is that of a character. -/
theorem spell_unit {n : Nat} (hn : n < 0xD800) (ps : List Piece) :
    spell (.unit n :: ps) = (spell ps).map (Char.ofNat n :: ·) := by
  rw [spell.eq_def]
  exact if_pos (.inl hn)

/-- A character is written as pieces that spell it. -/
theorem exists_writes_escaped {c : Char} {cs text : List Char} {ps : List Piece}
    (h : Writes cs ps) (hspell : spell ps = some text) :
    ∃ ps', Writes (escaped c ++ cs) ps' ∧ spell ps' = some (c :: text) := by
  have hchar : ∀ d, spell (.char d :: ps) = some (d :: text) := by
    intro d
    rw [spell, hspell]
    rfl
  unfold escaped
  split
  case h_8 _ hquote hslash _ _ _ _ _ =>
    split
    -- a control character that has no short escape is given by its number
    next hcontrol =>
      obtain ⟨hdigits, hunit⟩ := unitDigits_spec c.toNat hcontrol
      rw [hdigits]
      refine ⟨_, .unit hunit h, ?_⟩
      rw [spell_unit (by omega), hspell, Char.ofNat_toNat]
      rfl
    next hplain => exact ⟨_, .plain hplain hquote hslash h, hchar c⟩
  all_goals exact ⟨_, .escape rfl h, hchar _⟩

theorem exists_writes (cs : List Char) :
    ∃ ps, Writes (cs.flatMap escaped) ps ∧ spell ps = some cs := by
  induction cs with
  | nil => exact ⟨[], .nil, rfl⟩
  | cons c cs ih =>
    obtain ⟨ps, hwrites, hspell⟩ := ih
    exact exists_writes_escaped hwrites hspell

/-- A text in quotes is a string that stands for it. -/
theorem written_quoted (s : String) : Written (quoted s).toList (.string (some s)) := by
  obtain ⟨ps, hwrites, hspell⟩ := exists_writes s.toList
  have hwritten := Written.string hwrites
  rw [hspell] at hwritten
  rw [quoted, String.toList_ofList]
  simpa using hwritten

/-! ### Natural numbers -/

/-- Only zero is written with a leading zero. -/
theorem head_toDigits {n : Nat} (hpos : 0 < n) : (Nat.toDigits 10 n).head? ≠ some '0' := by
  induction n using Nat.strongRecOn with
  | _ n ih =>
    by_cases hsmall : n < 10
    · have hdigit : ∀ k < 10, 0 < k → k.digitChar ≠ '0' := by decide
      rw [Nat.toDigits_of_lt_base hsmall]
      exact fun h => hdigit n hsmall hpos (Option.some.inj h)
    · have hlarge : 10 ≤ n := Nat.le_of_not_lt hsmall
      rw [Nat.toDigits_of_base_le (by decide) hlarge, List.head?_append]
      have hhead := ih (n / 10) (by omega) (by omega)
      have hne : Nat.toDigits 10 (n / 10) ≠ [] := Nat.toDigits_ne_nil
      obtain ⟨d, ds, hdigits⟩ := List.exists_cons_of_ne_nil hne
      rw [hdigits] at hhead ⊢
      exact hhead

theorem whole_toDigits (n : Nat) : Whole (Nat.toDigits 10 n) := by
  rcases Nat.eq_zero_or_pos n with rfl | hpos
  · exact .inl rfl
  · exact .inr ⟨⟨Nat.toDigits_ne_nil, fun c hc =>
      Nat.isDigit_of_mem_toDigits (by decide) (by decide) hc⟩, head_toDigits hpos⟩

theorem decimal_toDigits (n : Nat) : decimal (Nat.toDigits 10 n) = n := by
  have hstep : (fun (n : Nat) (c : Char) => n * 10 + (c.toNat - '0'.toNat))
      = fun n c => 10 * n + (c.toNat - '0'.toNat) := by
    funext n c
    rw [Nat.mul_comm]
  -- the library multiplies on the other side
  rw [decimal, hstep, ← Nat.ofDigitChars_eq_foldl, Nat.ofDigitChars_ten_toDigits]

theorem writesNumber_toString (n : Nat) : WritesNumber (toString n).toList (.natural n) := by
  have hwrites := WritesNumber.natural (whole_toDigits n)
  rw [decimal_toDigits] at hwrites
  rw [Nat.toString_eq_ofList_toDigits, String.toList_ofList]
  exact hwrites

/-! ### Values -/

/-- A text that is made of these tokens, whatever it stands before that ends a number. -/
def Lays (cs : List Char) (ts : List Token) : Prop :=
  ∀ (rest : List Char) (more : List Token), Laid rest more → Ends rest →
    Laid (cs ++ rest) (ts ++ more)

theorem Token.Written.lays {cs : List Char} {t : Token} (h : Written cs t) : Lays cs [t] :=
  fun _ _ hrest _ => .token h hrest

/-- What stands between values and behind them ends a number. -/
theorem ends_cons {c : Char} (hc : c ∈ [',', ']', '\x7d']) (rest : List Char) :
    Ends (c :: rest) := by
  have hmarks : ∀ c ∈ [',', ']', '\x7d'], c.isDigit = false ∧ c ≠ '.' ∧ c ∉ ['e', 'E'] := by
    simp
  intro d hd
  cases hd
  exact hmarks c hc

section Joined

variable {α : Type} {text : α → List Char} {toks : α → List Token}

/-- Parts behind commas. -/
theorem laid_further {parts : List α} (h : ∀ part ∈ parts, Lays (text part) (toks part))
    {rest : List Char} {more : List Token} (hrest : Laid rest more) (hends : Ends rest) :
    Laid ((parts.map text).flatMap (',' :: ·) ++ rest) (further (parts.map toks) ++ more) ∧
      Ends ((parts.map text).flatMap (',' :: ·) ++ rest) := by
  induction parts with
  | nil => exact ⟨hrest, hends⟩
  | cons part parts ih =>
    obtain ⟨hpart, hparts⟩ := List.forall_mem_cons.1 h
    obtain ⟨hlaid, hends'⟩ := ih hparts
    have hcomma : Written [','] .comma := .mark (by simp [marks])
    refine ⟨?_, ends_cons List.mem_cons_self _⟩
    have hall := Laid.token hcomma (hpart _ _ hlaid hends')
    simpa [further] using hall

/-- Parts with commas between them. -/
theorem lays_intercalate {parts : List α} (h : ∀ part ∈ parts, Lays (text part) (toks part)) :
    Lays ([','].intercalate (parts.map text)) ([Token.comma].intercalate (parts.map toks)) := by
  intro rest more hrest hends
  cases parts with
  | nil => exact hrest
  | cons part parts =>
    obtain ⟨hpart, hparts⟩ := List.forall_mem_cons.1 h
    obtain ⟨hlaid, hends'⟩ := laid_further hparts hrest hends
    rw [List.map_cons, List.map_cons, intercalate_cons, intercalate_cons, List.append_assoc,
      List.append_assoc]
    exact hpart _ _ hlaid hends'

end Joined

/-- A container is written between two marks. -/
theorem lays_between {first last : Char} {opener closer : Token} (hfirst : (first, opener) ∈ marks)
    (hlast : (last, closer) ∈ marks) (hends : last ∈ [',', ']', '\x7d']) {cs : List Char}
    {ts : List Token} (h : Lays cs ts) :
    Lays (first :: (cs ++ [last])) (opener :: (ts ++ [closer])) := by
  intro rest more hrest _
  have hinner := h _ _ (.token (.mark hlast) hrest) (ends_cons hends _)
  have hall := Laid.token (.mark hfirst) hinner
  simpa using hall

theorem renderItems_eq (items : List Json) : renderItems items = items.map render := by
  induction items with
  | nil => rfl
  | cons item items ih => rw [renderItems, ih, List.map_cons]

theorem itemTokens_eq (items : List Json) : itemTokens items = items.map tokens := by
  induction items with
  | nil => rfl
  | cons item items ih => rw [itemTokens, ih, List.map_cons]

theorem renderMembers_eq (fields : List (String × Json)) :
    renderMembers (fields.map fun (key, value) => (some key, value))
      = fields.map fun field => quoted field.1 ++ ":" ++ field.2.render := by
  induction fields with
  | nil => rfl
  | cons field fields ih =>
    rw [List.map_cons, renderMembers, ih, List.map_cons]
    rfl

theorem memberTokens_eq (fields : List (String × Json)) :
    memberTokens (fields.map fun (key, value) => (some key, value))
      = fields.map fun field => .string (some field.1) :: .colon :: field.2.tokens := by
  induction fields with
  | nil => rfl
  | cons field fields ih => rw [List.map_cons, memberTokens, ih, List.map_cons]

theorem toList_render_array (items : List Json) :
    (array items).render.toList
      = '[' :: ([','].intercalate (items.map fun item => item.render.toList) ++ [']']) := by
  show ("[" ++ ",".intercalate (renderItems items) ++ "]").toList = _
  rw [String.toList_append, String.toList_append, String.toList_intercalate, renderItems_eq,
    List.map_map]
  rfl

theorem toList_render_ofFields (fields : List (String × Json)) :
    (ofFields fields).render.toList
      = '\x7b' :: ([','].intercalate (fields.map fun field =>
          (quoted field.1).toList ++ ':' :: field.2.render.toList) ++ ['\x7d']) := by
  have hmember : ∀ field : String × Json, (quoted field.1 ++ ":" ++ field.2.render).toList
      = (quoted field.1).toList ++ ':' :: field.2.render.toList := by
    intro field
    rw [String.toList_append, String.toList_append, List.append_assoc]
    rfl
  show ("\x7b" ++ ",".intercalate (renderMembers _) ++ "\x7d").toList = _
  rw [String.toList_append, String.toList_append, String.toList_intercalate, renderMembers_eq,
    List.map_map]
  simp only [Function.comp_def, hmember]
  rfl

/-- A value whose strings stand for texts, and whose numbers are spelled as numbers. -/
inductive Plain : Json → Prop
  | null : Plain .null
  | bool (b : Bool) : Plain (.bool b)
  | natural (n : Nat) : Plain (.natural n)
  | number {spelling : String} (h : WritesNumber spelling.toList (.number spelling)) :
      Plain (.number spelling)
  | text (s : String) : Plain (.text s)
  | array {items : List Json} (h : ∀ item ∈ items, Plain item) : Plain (.array items)
  | ofFields {fields : List (String × Json)} (h : ∀ field ∈ fields, Plain field.2) :
      Plain (.ofFields fields)

attribute [simp] Plain.null Plain.bool Plain.natural Plain.text Plain.array Plain.ofFields

/-- What is written of a plain value is made of its tokens. -/
theorem Plain.lays {v : Json} (h : v.Plain) : Lays v.render.toList v.tokens := by
  induction h with
  | null => exact Written.null.lays
  | bool b =>
    cases b with
    | false => exact Written.false.lays
    | true => exact Written.true.lays
  | natural n => exact fun _ _ hrest hends => .number (writesNumber_toString n) hends hrest
  | number h => exact fun _ _ hrest hends => .number h hends hrest
  | text s => exact (written_quoted s).lays
  | @array items h ih =>
    have hopen : ('[', Token.openArray) ∈ marks := by simp [marks]
    have hclose : (']', Token.closeArray) ∈ marks := by simp [marks]
    rw [toList_render_array, tokens, itemTokens_eq]
    exact lays_between hopen hclose (by decide) (lays_intercalate ih)
  | @ofFields fields h ih =>
    have hopen : ('\x7b', Token.openObject) ∈ marks := by simp [marks]
    have hclose : ('\x7d', Token.closeObject) ∈ marks := by simp [marks]
    have hcolon : Written [':'] .colon := .mark (by simp [marks])
    have hmember : ∀ field ∈ fields,
        Lays ((quoted field.1).toList ++ ':' :: field.2.render.toList)
          (.string (some field.1) :: .colon :: field.2.tokens) := by
      intro field hfield rest more hrest hends
      have hvalue := ih field hfield rest more hrest hends
      have hall := Laid.token (written_quoted field.1) (.token hcolon hvalue)
      simpa using hall
    rw [toList_render_ofFields, Json.ofFields, tokens, memberTokens_eq]
    exact lays_between hopen hclose (by decide) (lays_intercalate hmember)

/-- Blanks alone, which end a number. -/
theorem laid_blanks {cs : List Char} (h : ∀ c ∈ cs, isBlank c = true) : Laid cs [] ∧ Ends cs := by
  induction cs with
  | nil => exact ⟨.nil, fun c hc => by cases hc⟩
  | cons c cs ih =>
    obtain ⟨hc, hcs⟩ := List.forall_mem_cons.1 h
    refine ⟨.blank hc (ih hcs).1, fun d hd => ?_⟩
    cases hd
    simp only [isBlank, Bool.or_eq_true, beq_iff_eq, or_assoc] at hc
    rcases hc with rfl | rfl | rfl | rfl <;> decide

/-- What is written of a plain value spells it, and blanks may follow. -/
theorem Plain.spells_render {v : Json} (h : v.Plain) (blanks : String)
    (hblanks : ∀ c ∈ blanks.toList, isBlank c = true) : Spells (v.render ++ blanks) v := by
  obtain ⟨hlaid, hends⟩ := laid_blanks hblanks
  have hall := h.lays _ _ hlaid hends
  rw [List.append_nil, ← String.toList_append] at hall
  exact hall

theorem Plain.spells_line {v : Json} (h : v.Plain) : Spells (v.render ++ "\n") v :=
  h.spells_render "\n" (List.forall_mem_singleton.2 rfl)

/-- **What is written of a plain value is read as that value.** -/
theorem Plain.ofText?_render {v : Json} (h : v.Plain) : Json.ofText? v.render = some v := by
  have hspells := h.spells_render "" (List.forall_mem_nil _)
  rw [String.append_empty] at hspells
  exact hspells.ofText?

end PinBridge.Json
