/-
PinBridge/Proofs/Json/Lexing.lean

How the tokens of JSON are written, and that they are found again.

`Laid` says that a text is made of certain tokens, with blanks anywhere between
them.  Most tokens tell by themselves where they end.  A number does not: it
goes on as long as it can, so what stands behind it must not continue it.

Main statement: `Laid.scanText`, a text that is made of tokens is cut into them.
-/
import Mathlib.Data.List.TakeDrop
import PinBridge.Json.Token

namespace PinBridge.Json.Token

/-! ### How tokens are written -/

/-- How the pieces of a string are written between its quotes. -/
inductive Writes : List Char → List Piece → Prop
  | nil : Writes [] []
  | plain {c : Char} {cs : List Char} {ps : List Piece} (hcontrol : ¬c.toNat < 0x20)
      (hquote : c ≠ '"') (hslash : c ≠ '\\') (h : Writes cs ps) :
      Writes (c :: cs) (.char c :: ps)
  | escape {e c : Char} {cs : List Char} {ps : List Piece} (hescape : escape? e = some c)
      (h : Writes cs ps) : Writes ('\\' :: e :: cs) (.char c :: ps)
  | unit {a b c d : Char} {n : Nat} {cs : List Char} {ps : List Piece}
      (hunit : codeUnit? a b c d = some n) (h : Writes cs ps) :
      Writes ('\\' :: 'u' :: a :: b :: c :: d :: cs) (.unit n :: ps)

/-- One digit or more. -/
def Digits (ds : List Char) : Prop := ds ≠ [] ∧ ∀ c ∈ ds, c.isDigit = true

/-- The whole part of a number, which has no leading zero. -/
def Whole (ds : List Char) : Prop := ds = ['0'] ∨ Digits ds ∧ ds.head? ≠ some '0'

inductive Fraction : List Char → Prop
  | absent : Fraction []
  | present {ds : List Char} (h : Digits ds) : Fraction ('.' :: ds)

inductive Exponent : List Char → Prop
  | absent : Exponent []
  | present {e : Char} {sign ds : List Char} (he : e ∈ ['e', 'E'])
      (hsign : sign ∈ [[], ['+'], ['-']]) (h : Digits ds) : Exponent (e :: sign ++ ds)

/-- How a number is written.  Digits alone give a natural number. -/
inductive WritesNumber : List Char → Json → Prop
  | natural {ds : List Char} (h : Whole ds) : WritesNumber ds (.natural (decimal ds))
  | other {sign whole fraction exponent : List Char} (hsign : sign ∈ [[], ['-']])
      (hwhole : Whole whole) (hfraction : Fraction fraction) (hexponent : Exponent exponent)
      (hother : sign ++ fraction ++ exponent ≠ []) :
      WritesNumber (sign ++ whole ++ fraction ++ exponent)
        (.number (String.ofList (sign ++ whole ++ fraction ++ exponent)))

/-- The tokens that are one character each. -/
def marks : List (Char × Token) :=
  [('[', .openArray), (']', .closeArray), ('\x7b', .openObject), ('\x7d', .closeObject),
    (':', .colon), (',', .comma)]

/-- How a token is written that is no number. -/
inductive Written : List Char → Token → Prop
  | mark {c : Char} {t : Token} (h : (c, t) ∈ marks) : Written [c] t
  | null : Written ['n', 'u', 'l', 'l'] (.scalar .null)
  | true : Written ['t', 'r', 'u', 'e'] (.scalar (.bool true))
  | false : Written ['f', 'a', 'l', 's', 'e'] (.scalar (.bool false))
  | string {cs : List Char} {ps : List Piece} (h : Writes cs ps) :
      Written ('"' :: cs ++ ['"']) (.string ((spell ps).map String.ofList))

/-- What may stand behind a number: nothing that continues it. -/
def Ends (rest : List Char) : Prop :=
  ∀ c ∈ rest.head?, c.isDigit = false ∧ c ≠ '.' ∧ c ∉ ['e', 'E']

/-- A text that is made of tokens, and of blanks. -/
inductive Laid : List Char → List Token → Prop
  | nil : Laid [] []
  | blank {c : Char} {cs : List Char} {ts : List Token} (hblank : isBlank c = true)
      (h : Laid cs ts) : Laid (c :: cs) ts
  | token {cs rest : List Char} {t : Token} {ts : List Token} (hcs : Written cs t)
      (h : Laid rest ts) : Laid (cs ++ rest) (t :: ts)
  | number {cs rest : List Char} {v : Json} {ts : List Token} (hcs : WritesNumber cs v)
      (hends : Ends rest) (h : Laid rest ts) : Laid (cs ++ rest) (.scalar v :: ts)

/-! ### Strings -/

/-- A string is read up to its closing quote. -/
theorem Writes.pieces_eq {cs : List Char} {ps : List Piece} (h : Writes cs ps)
    (rest : List Char) : pieces (cs ++ '"' :: rest) = some (ps, rest) := by
  induction h with
  | nil => rfl
  | @plain c cs ps hcontrol hquote hslash h ih =>
    have hc : ¬(c.toNat < 0x20 ∨ c = '\\') := by
      rintro (hlt | heq)
      · exact hcontrol hlt
      · exact hslash heq
    rw [List.cons_append, pieces, if_neg hc, ih]
    · rfl
    · exact hquote
    · intro a b c' d rest' heq
      exact absurd heq hslash
    · intro e rest' heq
      exact absurd heq hslash
  | @escape e c cs ps hescape h ih =>
    rw [List.cons_append, List.cons_append, pieces, hescape, ih]
    · rfl
    · rintro a b c' d rest' rfl
      cases hescape
  | @unit a b c d n cs ps hunit h ih =>
    show pieces ('\\' :: 'u' :: a :: b :: c :: d :: (cs ++ '"' :: rest)) = _
    rw [pieces, hunit, ih]
    rfl

/-! ### Numbers -/

variable {ds rest : List Char}

/-- No digit stands in front. -/
def NoDigit (rest : List Char) : Prop := ∀ c ∈ rest.head?, c.isDigit = false

theorem Digits.append (h : Digits ds) (hrest : NoDigit rest) :
    digits (ds ++ rest) = (ds, rest) := by
  have hnone : rest.takeWhile Char.isDigit = [] ∧ rest.dropWhile Char.isDigit = rest := by
    cases rest with
    | nil => exact ⟨rfl, rfl⟩
    | cons c rest =>
      have hc : ¬c.isDigit = true := by
        rw [hrest c rfl]
        exact Bool.false_ne_true
      exact ⟨List.takeWhile_cons_of_neg hc, List.dropWhile_cons_of_neg hc⟩
  rw [digits, List.span_eq_takeWhile_dropWhile, List.takeWhile_append_of_pos h.2,
    List.dropWhile_append_of_pos h.2, hnone.1, hnone.2, List.append_nil]

theorem wholePart?_append (h : Whole ds) (hrest : NoDigit rest) :
    wholePart? (ds ++ rest) = some (ds, rest) := by
  rcases h with rfl | ⟨hds, hhead⟩
  · rfl
  · have happend := hds.append hrest
    obtain ⟨c, ds, rfl⟩ := List.exists_cons_of_ne_nil hds.1
    unfold wholePart?
    split
    next heq =>
      cases heq
      exact absurd rfl hhead
    · rw [happend]

theorem digitsAfter?_append (h : Digits ds) (hrest : NoDigit rest) (mark : List Char) :
    digitsAfter? mark (ds ++ rest) = some (mark ++ ds, rest) := by
  rw [digitsAfter?, h.append hrest]
  obtain ⟨c, ds, rfl⟩ := List.exists_cons_of_ne_nil h.1
  rfl

theorem fraction?_append {fraction : List Char} (h : Fraction fraction) (hrest : NoDigit rest)
    (hpoint : rest.head? ≠ some '.') : fraction? (fraction ++ rest) = some (fraction, rest) := by
  cases h with
  | absent =>
    show fraction? rest = _
    unfold fraction?
    split
    · exact absurd rfl hpoint
    · rfl
  | present h => exact digitsAfter?_append h hrest ['.']

theorem Ends.noDigit (h : Ends rest) : NoDigit rest := fun c hc => (h c hc).1

/-- What an exponent starts with starts no fraction and continues no digits. -/
theorem Exponent.head (h : Exponent ds) (hends : Ends rest) :
    NoDigit (ds ++ rest) ∧ (ds ++ rest).head? ≠ some '.' := by
  cases h with
  | absent =>
    refine ⟨fun c hc => (hends c hc).1, fun hpoint => ?_⟩
    exact (hends '.' hpoint).2.1 rfl
  | present he hsign h =>
    simp only [List.mem_cons, List.not_mem_nil, or_false] at he
    rcases he with rfl | rfl
    · exact ⟨fun c hc => by cases hc; decide, by simp⟩
    · exact ⟨fun c hc => by cases hc; decide, by simp⟩

/-- A digit is no sign. -/
theorem Digits.ne_sign {d : Char} (h : Digits (d :: ds)) : d ≠ '+' ∧ d ≠ '-' := by
  have hd : d.isDigit = true := h.2 d List.mem_cons_self
  constructor
  · rintro rfl
    cases hd
  · rintro rfl
    cases hd

/-- Without a sign the digits stand right behind the mark. -/
theorem exponent?_of_digits {e : Char} (he : e = 'e' ∨ e = 'E') (h : Digits ds)
    (rest : List Char) : exponent? (e :: (ds ++ rest)) = digitsAfter? [e] (ds ++ rest) := by
  obtain ⟨d, ds, rfl⟩ := List.exists_cons_of_ne_nil h.1
  have hplus : ∀ tail, d :: (ds ++ rest) = '+' :: tail → False :=
    fun tail heq => h.ne_sign.1 (List.cons.inj heq).1
  have hminus : ∀ tail, d :: (ds ++ rest) = '-' :: tail → False :=
    fun tail heq => h.ne_sign.2 (List.cons.inj heq).1
  rcases he with rfl | rfl
  · rw [List.cons_append, exponent?]
    · exact hplus
    · exact hminus
  · rw [List.cons_append, exponent?]
    · exact hplus
    · exact hminus

theorem exponent?_append {exponent : List Char} (h : Exponent exponent) (hends : Ends rest) :
    exponent? (exponent ++ rest) = some (exponent, rest) := by
  cases h with
  | absent =>
    show exponent? rest = _
    have hhead : ∀ c ∈ rest.head?, c ∉ ['e', 'E'] := fun c hc => (hends c hc).2.2
    unfold exponent?
    split
    case h_7 => rfl
    -- an exponent starts with a mark, and the rest does not
    all_goals exact absurd (by decide) (hhead _ rfl)
  | @present e sign ds he hsign h =>
    simp only [List.mem_cons, List.not_mem_nil, or_false] at he hsign
    have hafter := digitsAfter?_append h hends.noDigit
    rcases hsign with rfl | rfl | rfl
    · exact (exponent?_of_digits he h rest).trans (hafter [e])
    · rcases he with rfl | rfl
      · exact hafter ['e', '+']
      · exact hafter ['E', '+']
    · rcases he with rfl | rfl
      · exact hafter ['e', '-']
      · exact hafter ['E', '-']

/-- A whole part starts with a digit. -/
theorem Whole.head (h : Whole ds) : ∃ d ds', ds = d :: ds' ∧ d.isDigit = true := by
  rcases h with rfl | ⟨⟨hne, hds⟩, -⟩
  · exact ⟨'0', [], rfl, rfl⟩
  · obtain ⟨d, ds, rfl⟩ := List.exists_cons_of_ne_nil hne
    exact ⟨d, ds, rfl, hds d List.mem_cons_self⟩

/-- What is read behind the sign of a number. -/
def unsigned? (sign cs : List Char) : Option (Json × List Char) := do
  let (whole, cs) ← wholePart? cs
  let (fraction, cs) ← fraction? cs
  let (exponent, cs) ← exponent? cs
  if sign.isEmpty && fraction.isEmpty && exponent.isEmpty then
    return (.natural (decimal whole), cs)
  else
    return (.number (String.ofList (sign ++ whole ++ fraction ++ exponent)), cs)

theorem number?_of_minus (cs : List Char) : number? ('-' :: cs) = unsigned? ['-'] cs := rfl

theorem number?_of_isDigit {d : Char} (hd : d.isDigit = true) (cs : List Char) :
    number? (d :: cs) = unsigned? [] (d :: cs) := by
  unfold number?
  split
  next heq =>
    split at heq
    next hminus =>
      cases hminus
      cases hd
    · cases heq
      rfl

/-- The parts of a number are read one after the other. -/
theorem unsigned?_append {whole fraction exponent : List Char} (hwhole : Whole whole)
    (hfraction : Fraction fraction) (hexponent : Exponent exponent) (hends : Ends rest)
    (sign : List Char) :
    unsigned? sign (whole ++ fraction ++ exponent ++ rest) =
      some (if sign.isEmpty && fraction.isEmpty && exponent.isEmpty then .natural (decimal whole)
        else .number (String.ofList (sign ++ whole ++ fraction ++ exponent)), rest) := by
  obtain ⟨hnoDigit, hpoint⟩ := hexponent.head hends
  have hread : wholePart? (whole ++ (fraction ++ (exponent ++ rest)))
      = some (whole, fraction ++ (exponent ++ rest)) := by
    refine wholePart?_append hwhole ?_
    cases hfraction with
    | absent => exact hnoDigit
    | present h => exact fun c hc => by cases hc; rfl
  rw [List.append_assoc, List.append_assoc]
  simp only [unsigned?, hread, fraction?_append hfraction hnoDigit hpoint,
    exponent?_append hexponent hends, Option.bind_eq_bind, Option.bind_some, Option.pure_def]
  split <;> rfl

theorem number?_append {sign whole fraction exponent : List Char} (hsign : sign ∈ [[], ['-']])
    (hwhole : Whole whole) (hfraction : Fraction fraction) (hexponent : Exponent exponent)
    (hends : Ends rest) :
    number? (sign ++ whole ++ fraction ++ exponent ++ rest) =
      some (if sign.isEmpty && fraction.isEmpty && exponent.isEmpty then .natural (decimal whole)
        else .number (String.ofList (sign ++ whole ++ fraction ++ exponent)), rest) := by
  simp only [List.mem_cons, List.not_mem_nil, or_false] at hsign
  have hunsigned := unsigned?_append hwhole hfraction hexponent hends sign
  rcases hsign with rfl | rfl
  · obtain ⟨d, ds, rfl, hd⟩ := hwhole.head
    exact (number?_of_isDigit hd _).trans hunsigned
  · exact (number?_of_minus _).trans hunsigned

/-- A number is read as far as it goes. -/
theorem WritesNumber.number?_append {cs : List Char} {v : Json} (h : WritesNumber cs v)
    (hends : Ends rest) : number? (cs ++ rest) = some (v, rest) := by
  cases h with
  | natural h =>
    have happend := Token.number?_append List.mem_cons_self h .absent .absent hends
    simpa using happend
  | @other sign whole fraction exponent hsign hwhole hfraction hexponent hother =>
    have hempty : (sign.isEmpty && fraction.isEmpty && exponent.isEmpty) = false := by
      rw [← Bool.not_eq_true]
      simpa [and_assoc] using hother
    rw [Token.number?_append hsign hwhole hfraction hexponent hends, hempty,
      if_neg Bool.false_ne_true]

/-- What a number starts with. -/
theorem WritesNumber.head {cs : List Char} {v : Json} (h : WritesNumber cs v) :
    ∃ c cs', cs = c :: cs' ∧ (c = '-' ∨ c.isDigit = true) := by
  cases h with
  | natural h =>
    obtain ⟨d, ds, rfl, hd⟩ := h.head
    exact ⟨d, ds, rfl, .inr hd⟩
  | other hsign hwhole hfraction hexponent hother =>
    simp only [List.mem_cons, List.not_mem_nil, or_false] at hsign
    obtain ⟨d, ds, rfl, hd⟩ := hwhole.head
    rcases hsign with rfl | rfl
    · exact ⟨d, _, rfl, .inr hd⟩
    · exact ⟨'-', _, rfl, .inl rfl⟩

/-! ### All tokens -/

theorem Written.next?_append {cs : List Char} {t : Token} (h : Written cs t) (rest : List Char) :
    next? (cs ++ rest) = some (t, rest) := by
  cases h with
  | @mark c t h =>
    simp only [marks, List.mem_cons, List.not_mem_nil, or_false, Prod.mk.injEq] at h
    rcases h with ⟨rfl, rfl⟩ | ⟨rfl, rfl⟩ | ⟨rfl, rfl⟩ | ⟨rfl, rfl⟩ | ⟨rfl, rfl⟩ | ⟨rfl, rfl⟩
    all_goals rfl
  | null => rfl
  | true => rfl
  | false => rfl
  | @string cs ps h =>
    show next? ('"' :: (cs ++ ['"'] ++ rest)) = _
    rw [List.append_assoc, List.singleton_append, next?, h.pieces_eq]
    rfl

theorem Written.ne_nil {cs : List Char} {t : Token} (h : Written cs t) : cs ≠ [] := by
  cases h <;> exact List.cons_ne_nil _ _

theorem WritesNumber.ne_nil {cs : List Char} {v : Json} (h : WritesNumber cs v) : cs ≠ [] := by
  obtain ⟨c, cs, rfl, -⟩ := h.head
  exact List.cons_ne_nil _ _

theorem WritesNumber.next?_append {cs : List Char} {v : Json} (h : WritesNumber cs v)
    (hends : Ends rest) : next? (cs ++ rest) = some (.scalar v, rest) := by
  have hnumber := h.number?_append hends
  obtain ⟨c, cs, rfl, hc⟩ := h.head
  unfold next?
  split
  case h_11 =>
    rw [hnumber]
    rfl
  -- what any other token starts with is no digit and no minus sign
  all_goals
    next heq =>
      obtain ⟨rfl, -⟩ := List.cons.inj heq
      rcases hc with hc | hc <;> cases hc

/-- No token starts with a blank. -/
theorem not_isBlank_of_next? {c : Char} {cs : List Char} (h : next? (c :: cs) ≠ none) :
    isBlank c = false := by
  rw [← Bool.not_eq_true]
  intro hblank
  simp only [isBlank, Bool.or_eq_true, beq_iff_eq, or_assoc] at hblank
  rcases hblank with rfl | rfl | rfl | rfl
  all_goals exact h rfl

/-- One token after the other is found. -/
theorem scan_token {cs : List Char} {t : Token} (hnext : next? (cs ++ rest) = some (t, rest))
    {ts : List Token} (ih : ∀ steps, rest.length ≤ steps → scan steps rest = some ts)
    {steps : Nat} (hne : cs ≠ []) (hsteps : (cs ++ rest).length ≤ steps) :
    scan steps (cs ++ rest) = some (t :: ts) := by
  obtain ⟨c, cs, rfl⟩ := List.exists_cons_of_ne_nil hne
  have hblank : isBlank c = false :=
    not_isBlank_of_next? (Option.ne_none_iff_exists'.2 ⟨_, hnext⟩)
  rw [List.length_append, List.length_cons] at hsteps
  obtain ⟨steps, rfl⟩ : ∃ n, steps = n + 1 := ⟨steps - 1, by omega⟩
  have hrest := ih steps (by omega)
  show (if isBlank c then scan steps (cs ++ rest) else _) = _
  rw [hblank, if_neg Bool.false_ne_true]
  show (next? (c :: cs ++ rest)).bind _ = _
  rw [hnext]
  show (scan steps rest).bind _ = _
  rw [hrest]
  rfl

/-- **A text that is made of tokens is cut into them.** -/
theorem Laid.scanText {cs : List Char} {ts : List Token} (h : Laid cs ts) :
    scanText cs = some ts := by
  -- any bound will do that is no less than the length, so that the rest may be read with what the
  -- first token leaves of it
  have hscan : ∀ steps, cs.length ≤ steps → scan steps cs = some ts := by
    induction h with
    | nil =>
      intro steps hsteps
      cases steps <;> rfl
    | blank hblank h ih =>
      intro steps hsteps
      rw [List.length_cons] at hsteps
      obtain ⟨steps, rfl⟩ : ∃ n, steps = n + 1 := ⟨steps - 1, by omega⟩
      rw [scan, if_pos hblank]
      exact ih steps (Nat.le_of_succ_le_succ hsteps)
    | token hcs h ih => exact fun steps => scan_token (hcs.next?_append _) ih hcs.ne_nil
    | number hcs hends h ih => exact fun steps => scan_token (hcs.next?_append hends) ih hcs.ne_nil
  exact hscan cs.length (Nat.le_refl _)

end PinBridge.Json.Token
