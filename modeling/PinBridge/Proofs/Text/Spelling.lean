/-
PinBridge/Proofs/Text/Spelling.lean

The texts that spell bytes in hexadecimal digits.

What a text spells depends only on its digits: the characters that are left when
the text is cut at the separators and each piece has lost the mark it may start
with (`digitsOf`).  `Spells` says what digits spell, two to a byte and in either
case; it knows neither of text nor of UTF-8.  The reader goes over the bytes of
the digits in UTF-8 instead.  Of these a hexadecimal digit has one, with the
digit's value, and no other character has such a byte; so both find the same
digits, and the reader stops at the first byte that is none.

A text may be written in many ways (`Writing`): in groups of whole bytes, with
separators between them and a mark before any of them.

Main statement: `readHex_grammar`.
-/
import PinBridge.Proofs.Text.Hex
import PinBridge.Tool.Failure

namespace PinBridge.Text

/-! ### What digits spell -/

/-- A character that stands for a digit: the small one, or its capital. -/
def IsDigit (c : Char) (n : Nat) : Prop := n < 16 ∧ (c = hexDigit n ∨ c = (hexDigit n).toUpper)

instance (c : Char) (n : Nat) : Decidable (IsDigit c n) := instDecidableAnd

/-- A byte that stands for a digit. -/
def IsDigitCode (b : UInt8) : Prop := ∃ n, IsDigit (Char.ofNat b.toNat) n

/-- Digits that spell bytes, two to a byte. -/
inductive Spells : List Char → Bytes → Prop
  | nil : Spells [] []
  | cons {high low : Char} {b : UInt8} {digits : List Char} {bs : Bytes}
      (hhigh : IsDigit high (b.toNat / 16)) (hlow : IsDigit low (b.toNat % 16))
      (h : Spells digits bs) : Spells (high :: low :: digits) (b :: bs)

/-- The digits of a text: what is left of its groups without their marks.  Where separators stand
side by side there are empty groups between them, which leave nothing. -/
def digitsOf (s : String) : List Char := (s.toList.splitOnP isSeparator).flatMap unmarked

/-- What a group may start with. -/
def marks : List (List Char) := [[], ['0', 'x'], ['0', 'X']]

/-- The ways to write bytes: whole bytes in groups, each with a mark or without, and a separator
behind every group but the last.  A group may be empty, so any number of separators may stand
between two groups, in front of the first and behind the last. -/
inductive Writing : List Char → Bytes → Prop
  | last {mark digits : List Char} {bs : Bytes} (hmark : mark ∈ marks) (h : Spells digits bs) :
      Writing (mark ++ digits) bs
  | cons {mark digits rest : List Char} {separator : Char} {bs more : Bytes}
      (hmark : mark ∈ marks) (h : Spells digits bs) (hseparator : isSeparator separator = true)
      (hrest : Writing rest more) : Writing (mark ++ digits ++ separator :: rest) (bs ++ more)

/-! ### Digits in UTF-8 -/

theorem toUpper_hexDigit_spec : ∀ n < 16, isSeparator (hexDigit n).toUpper = false ∧
    (hexDigit n).toUpper ≠ 'x' ∧ (hexDigit n).toUpper ≠ 'X' ∧
    (String.utf8EncodeChar (hexDigit n).toUpper).map digitValue? = [some n] := by
  decide

/-- What the reader has to know of a digit in either case: it separates nothing, marks nothing, and
is one byte with the digit's value. -/
theorem IsDigit.spec {c : Char} {n : Nat} (h : IsDigit c n) :
    isSeparator c = false ∧ c ≠ 'x' ∧ c ≠ 'X' ∧
      (String.utf8EncodeChar c).map digitValue? = [some n] := by
  obtain ⟨hn, rfl | rfl⟩ := h
  · exact hexDigit_spec n hn
  · exact toUpper_hexDigit_spec n hn

/-- A digit in UTF-8. -/
theorem IsDigit.exists_code {c : Char} {n : Nat} (h : IsDigit c n) :
    ∃ code : UInt8, String.utf8EncodeChar c = [code] ∧ digitValue? code = some n :=
  List.map_eq_singleton_iff.1 h.spec.2.2.2

/-- The value of a byte is the digit that it stands for in ASCII. -/
theorem digitValue?_ofNat : ∀ k < 256,
    digitValue? (.ofNat k) = (List.range 16).find? fun n => IsDigit (Char.ofNat k) n := by
  decide +kernel

theorem isDigit_of_digitValue? {b : UInt8} {n : Nat} (h : digitValue? b = some n) :
    IsDigit (Char.ofNat b.toNat) n := by
  have htable := digitValue?_ofNat b.toNat b.toNat_lt
  rw [UInt8.ofNat_toNat, h] at htable
  have hfound := List.find?_some htable.symm
  exact of_decide_eq_true hfound

theorem isDigitCode_iff (b : UInt8) : IsDigitCode b ↔ ∃ n, digitValue? b = some n := by
  constructor
  · rintro ⟨n, hdigit⟩
    have htable := digitValue?_ofNat b.toNat b.toNat_lt
    rw [UInt8.ofNat_toNat] at htable
    rw [htable, ← Option.isSome_iff_exists, List.find?_isSome]
    exact ⟨n, List.mem_range.2 hdigit.1, decide_eq_true hdigit⟩
  · rintro ⟨n, hvalue⟩
    exact ⟨n, isDigit_of_digitValue? hvalue⟩

/-- The bytes of a character beyond ASCII are beyond ASCII. -/
theorem le_toNat_of_mem_utf8EncodeChar {c : Char} (hc : ¬c.val.toNat ≤ 127) {b : UInt8}
    (hb : b ∈ String.utf8EncodeChar c) : 128 ≤ b.toNat := by
  unfold String.utf8EncodeChar at hb
  simp only [if_neg hc] at hb
  split at hb
  · simp only [List.mem_cons, List.not_mem_nil, or_false] at hb
    rcases hb with rfl | rfl <;> simp only [UInt8.toNat_ofNat'] <;> omega
  · split at hb
    · simp only [List.mem_cons, List.not_mem_nil, or_false] at hb
      rcases hb with rfl | rfl | rfl <;> simp only [UInt8.toNat_ofNat'] <;> omega
    · simp only [List.mem_cons, List.not_mem_nil, or_false] at hb
      rcases hb with rfl | rfl | rfl | rfl <;> simp only [UInt8.toNat_ofNat'] <;> omega

/-- **A character with a byte that stands for a digit is that digit.** -/
theorem isDigit_of_mem_utf8EncodeChar {c : Char} {b : UInt8} {n : Nat}
    (hb : b ∈ String.utf8EncodeChar c) (hvalue : digitValue? b = some n) : IsDigit c n := by
  have hdigit := isDigit_of_digitValue? hvalue
  have hsmall : b.toNat < 128 := by
    unfold digitValue? at hvalue
    grind
  by_cases hc : c.val.toNat ≤ 127
  · -- the character is its only byte
    have hencode : String.utf8EncodeChar c = [.ofNat c.val.toNat] := by
      unfold String.utf8EncodeChar
      simp only [if_pos hc]
    rw [hencode, List.mem_singleton] at hb
    have hcode : b.toNat = c.toNat := by
      rw [hb, UInt8.toNat_ofNat']
      show c.val.toNat % 2 ^ 8 = c.val.toNat
      omega
    rwa [hcode, Char.ofNat_toNat] at hdigit
  · exact absurd (le_toNat_of_mem_utf8EncodeChar hc hb) (Nat.not_le.2 hsmall)

/-! ### Reading pairs -/

variable {digits more : List Char} {bs : Bytes}

theorem Spells.append {bs' : Bytes} (h : Spells digits bs) (h' : Spells more bs') :
    Spells (digits ++ more) (bs ++ bs') := by
  induction h with
  | nil => exact h'
  | cons hhigh hlow h ih => exact .cons hhigh hlow ih

theorem Spells.exists_digit (h : Spells digits bs) {c : Char} (hc : c ∈ digits) :
    ∃ n, IsDigit c n := by
  induction h with
  | nil => cases hc
  | cons hhigh hlow h ih =>
    rcases List.mem_cons.1 hc with rfl | hc
    · exact ⟨_, hhigh⟩
    · rcases List.mem_cons.1 hc with rfl | hc
      · exact ⟨_, hlow⟩
      · exact ih hc

/-- Digits have two bytes for each byte that they spell. -/
theorem Spells.length_utf8 (h : Spells digits bs) :
    (digits.flatMap String.utf8EncodeChar).length = 2 * bs.length := by
  induction h with
  | nil => rfl
  | cons hhigh hlow h ih =>
    obtain ⟨high, hhigh, -⟩ := hhigh.exists_code
    obtain ⟨low, hlow, -⟩ := hlow.exists_code
    rw [List.flatMap_cons, List.flatMap_cons, hhigh, hlow, List.length_append, List.length_append,
      ih, List.length_singleton, List.length_singleton, List.length_cons]
    omega

/-- What digits spell is what they are read as. -/
theorem Spells.readPairs (h : Spells digits bs) (position : Nat) :
    readPairs position (digits.flatMap String.utf8EncodeChar) = .ok bs := by
  induction h generalizing position with
  | nil => rfl
  | @cons _ _ b digits bs hhigh hlow h ih =>
    obtain ⟨high, hhigh, hhighValue⟩ := hhigh.exists_code
    obtain ⟨low, hlow, hlowValue⟩ := hlow.exists_code
    have hbyte : UInt8.ofNat (b.toNat / 16 * 16 + b.toNat % 16) = b := by
      rw [Nat.div_add_mod' b.toNat 16, UInt8.ofNat_toNat]
    rw [List.flatMap_cons, List.flatMap_cons, hhigh, hlow, List.singleton_append,
      List.singleton_append, Text.readPairs, digitAt_of_value hhighValue,
      digitAt_of_value hlowValue]
    simp only [bind, Except.bind, pure, Except.pure, hbyte, ih]

/-- Of an even number of bytes the first that stands for no digit is told with its place. -/
theorem readPairs_stray {b : UInt8} (hb : digitValue? b = none) {after : Bytes} :
    ∀ {before : Bytes} (_ : ∀ code ∈ before, ∃ n, digitValue? code = some n)
      (_ : (before ++ b :: after).length % 2 = 0) (position : Nat),
      readPairs position (before ++ b :: after)
        = .error (.badDigit b (position + before.length))
  | [], _, heven, position => by
    obtain ⟨low, rest, rfl⟩ : ∃ low rest, after = low :: rest := by
      cases after with
      | nil => cases heven
      | cons low rest => exact ⟨low, rest, rfl⟩
    rw [List.nil_append, readPairs, digitAt, hb]
    rfl
  | [high], hbefore, _, position => by
    obtain ⟨n, hn⟩ := hbefore high List.mem_cons_self
    rw [List.singleton_append, readPairs, digitAt_of_value hn, digitAt, hb]
    rfl
  | high :: low :: before, hbefore, heven, position => by
    obtain ⟨m, hm⟩ := hbefore high List.mem_cons_self
    obtain ⟨n, hn⟩ := hbefore low (List.mem_cons_of_mem _ List.mem_cons_self)
    have hrest : ∀ code ∈ before, ∃ n, digitValue? code = some n := fun code hcode =>
      hbefore code (List.mem_cons_of_mem _ (List.mem_cons_of_mem _ hcode))
    have hevenRest : (before ++ b :: after).length % 2 = 0 := by
      rw [List.cons_append, List.cons_append, List.length_cons, List.length_cons] at heven
      omega
    have hplace : position + 2 + before.length = position + (before.length + 1 + 1) := by omega
    rw [List.cons_append, List.cons_append, readPairs, digitAt_of_value hm, digitAt_of_value hn,
      readPairs_stray hb hrest hevenRest (position + 2), hplace]
    rfl

/-- An even number of digits spells bytes. -/
theorem exists_spells : ∀ {digits : List Char} (_ : ∀ c ∈ digits, ∃ n, IsDigit c n)
    (_ : digits.length % 2 = 0), ∃ bs, Spells digits bs
  | [], _, _ => ⟨[], .nil⟩
  | [_], _, heven => by cases heven
  | high :: low :: digits, hdigits, heven => by
    obtain ⟨m, hm⟩ := hdigits high List.mem_cons_self
    obtain ⟨n, hn⟩ := hdigits low (List.mem_cons_of_mem _ List.mem_cons_self)
    have hrest : ∀ c ∈ digits, ∃ n, IsDigit c n := fun c hc =>
      hdigits c (List.mem_cons_of_mem _ (List.mem_cons_of_mem _ hc))
    have hevenRest : digits.length % 2 = 0 := by
      rw [List.length_cons, List.length_cons] at heven
      omega
    obtain ⟨bs, hbs⟩ := exists_spells hrest hevenRest
    have hm16 : m < 16 := hm.1
    have hn16 : n < 16 := hn.1
    have hvalue : (UInt8.ofNat (m * 16 + n)).toNat = m * 16 + n := by
      rw [UInt8.toNat_ofNat']
      omega
    have hhigh : (UInt8.ofNat (m * 16 + n)).toNat / 16 = m := by omega
    have hlow : (UInt8.ofNat (m * 16 + n)).toNat % 16 = n := by omega
    refine ⟨.ofNat (m * 16 + n) :: bs, .cons ?_ ?_ hbs⟩
    · rwa [hhigh]
    · rwa [hlow]

theorem length_utf8_of_digits (h : ∀ c ∈ digits, ∃ n, IsDigit c n) :
    (digits.flatMap String.utf8EncodeChar).length = digits.length := by
  induction digits with
  | nil => rfl
  | cons c digits ih =>
    obtain ⟨⟨n, hn⟩, hdigits⟩ := List.forall_mem_cons.1 h
    obtain ⟨code, hcode, -⟩ := hn.exists_code
    rw [List.flatMap_cons, hcode, List.length_append, ih hdigits, List.length_singleton,
      List.length_cons, Nat.add_comm]

/-- **Digits spell bytes, or a byte among an even number of them stands for no digit.** -/
theorem spells_or_stray (heven : (digits.flatMap String.utf8EncodeChar).length % 2 = 0) :
    (∃ bs, Spells digits bs) ∨
      ∃ before b after, digits.flatMap String.utf8EncodeChar = before ++ b :: after ∧
        (∀ code ∈ before, ∃ n, digitValue? code = some n) ∧ digitValue? b = none := by
  cases hfind : (digits.flatMap String.utf8EncodeChar).find? fun b => (digitValue? b).isNone with
  | some b =>
    obtain ⟨hb, before, after, hcode, hbefore⟩ := List.find?_eq_some_iff_append.1 hfind
    refine .inr ⟨before, b, after, hcode, fun code hmem => ?_, Option.isNone_iff_eq_none.1 hb⟩
    rw [← Option.isSome_iff_exists, ← Option.not_isNone]
    exact hbefore code hmem
  | none =>
    have hvalue : ∀ code ∈ digits.flatMap String.utf8EncodeChar,
        ∃ n, digitValue? code = some n := by
      intro code hcode
      have hsome := List.find?_eq_none.1 hfind code hcode
      rwa [Option.isNone_iff_eq_none, ← ne_eq, Option.ne_none_iff_exists'] at hsome
    have hdigits : ∀ c ∈ digits, ∃ n, IsDigit c n := by
      intro c hc
      obtain ⟨code, hcode⟩ : ∃ code, code ∈ String.utf8EncodeChar c := by
        refine List.exists_mem_of_length_pos ?_
        rw [String.length_utf8EncodeChar]
        exact c.utf8Size_pos
      obtain ⟨n, hn⟩ := hvalue code (List.mem_flatMap.2 ⟨c, hc, hcode⟩)
      exact ⟨n, isDigit_of_mem_utf8EncodeChar hcode hn⟩
    -- each digit is one byte, so their number is even, too
    rw [length_utf8_of_digits hdigits] at heven
    exact .inl (exists_spells hdigits heven)

/-! ### Groups -/

/-- Groups are what lies between the separators. -/
theorem groups_eq_splitOnP (cs : List Char) : groups cs = cs.splitOnP isSeparator := by
  induction cs with
  | nil => rfl
  | cons c cs ih =>
    rw [groups, List.splitOnP_cons_eq_if_modifyHead, ih]
    cases isSeparator c with
    | true => rfl
    | false =>
      cases hgroups : cs.splitOnP isSeparator with
      | nil => exact absurd hgroups (List.splitOnP_ne_nil _ _)
      | cons group rest => rfl

theorem digitBytes_eq (s : String) : digitBytes s = (digitsOf s).flatMap String.utf8EncodeChar := by
  rw [digitBytes, groups_eq_splitOnP, digitsOf]

/-- What is taken away from a group is its mark and nothing else. -/
theorem unmarked_append {mark : List Char} (hmark : mark ∈ marks) (h : Spells digits bs) :
    unmarked (mark ++ digits) = digits := by
  simp only [marks, List.mem_cons, List.not_mem_nil, or_false] at hmark
  rcases hmark with rfl | rfl | rfl
  · cases h with
    | nil => rfl
    | cons hhigh hlow h =>
      obtain ⟨-, hx, hX, -⟩ := hlow.spec
      exact unmarked_of_ne hx hX
  · rfl
  · rfl

theorem isSeparator_of_mem_group {mark : List Char} (hmark : mark ∈ marks) (h : Spells digits bs) :
    ∀ c ∈ mark ++ digits, isSeparator c = false := by
  have hmarks : ∀ mark ∈ marks, ∀ c ∈ mark, isSeparator c = false := by
    simp only [marks, List.forall_mem_cons, List.not_mem_nil, false_implies, implies_true]
    decide
  refine List.forall_mem_append.2 ⟨hmarks mark hmark, fun c hc => ?_⟩
  obtain ⟨n, hn⟩ := h.exists_digit hc
  exact hn.spec.1

/-- **However bytes are written, their digits spell them.** -/
theorem Writing.spells {text : List Char} (h : Writing text bs) :
    Spells (digitsOf (String.ofList text)) bs := by
  rw [digitsOf, String.toList_ofList, ← groups_eq_splitOnP]
  induction h with
  | last hmark h =>
    rw [groups_eq_singleton (isSeparator_of_mem_group hmark h), List.flatMap_singleton,
      unmarked_append hmark h]
    exact h
  | cons hmark h hseparator hrest ih =>
    rw [groups_append_cons (isSeparator_of_mem_group hmark h) hseparator, List.flatMap_cons,
      unmarked_append hmark h]
    exact h.append ih

/-! ### Reading -/

theorem mapError_eq_ok_iff {ε ε' α : Type} (f : ε → ε') (x : Except ε α) (a : α) :
    x.mapError f = .ok a ↔ x = .ok a := by
  cases x with
  | ok b =>
    have hmap : (Except.ok b : Except ε α).mapError f = .ok b := rfl
    rw [hmap, Except.ok.injEq, Except.ok.injEq]
  | error e =>
    constructor
    · exact fun h => by cases h
    · exact fun h => by cases h

theorem readHex_of_odd {s : String}
    (hodd : ((digitsOf s).flatMap String.utf8EncodeChar).length % 2 = 1) :
    readHex s = .error (.odd ((digitsOf s).flatMap String.utf8EncodeChar).length) := by
  rw [readHex, digitBytes_eq]
  exact if_pos hodd

theorem readHex_of_even {s : String}
    (heven : ((digitsOf s).flatMap String.utf8EncodeChar).length % 2 = 0) :
    readHex s = readPairs 0 ((digitsOf s).flatMap String.utf8EncodeChar) := by
  rw [readHex, digitBytes_eq]
  exact if_neg (by omega)

theorem readHex_of_spells {s : String} (h : Spells (digitsOf s) bs) : readHex s = .ok bs := by
  have heven : ((digitsOf s).flatMap String.utf8EncodeChar).length % 2 = 0 := by
    rw [h.length_utf8]
    exact Nat.mul_mod_right 2 _
  rw [readHex_of_even heven, h.readPairs]

/-- **A text is read exactly if its digits spell bytes.** -/
theorem readHex_eq_ok_iff (s : String) : readHex s = .ok bs ↔ Spells (digitsOf s) bs := by
  refine ⟨fun hread => ?_, readHex_of_spells⟩
  rcases Nat.mod_two_eq_zero_or_one ((digitsOf s).flatMap String.utf8EncodeChar).length with
    heven | hodd
  · -- what the digits spell is what has been read, as a text is read in one way only
    rcases spells_or_stray heven with ⟨bs', hspells⟩ | ⟨before, b, after, hcode, hbefore, hb⟩
    · have hboth := (readHex_of_spells hspells).symm.trans hread
      cases hboth
      exact hspells
    · rw [readHex_of_even heven, hcode, readPairs_stray hb hbefore (hcode ▸ heven)] at hread
      cases hread
  · rw [readHex_of_odd hodd] at hread
    cases hread

/-- **The reader accepts exactly the texts whose digits spell bytes, and tells of every other text
what is wrong with it.**

An odd number of bytes is told first, and then the first byte that stands for no digit, with its
place; either counts as wrong use.  So a dump is read as the bytes that it was written from, and
bytes are read from whichever way they are written. -/
theorem readHex_grammar :
    (∀ s : String,
      let digits := digitsOf s
      let code := digits.flatMap String.utf8EncodeChar
      let size := (String.ofList digits).utf8ByteSize
      let read := (readHex s).mapError Tool.Failure.ofHex
      (∀ bs, read = .ok bs ↔ Spells digits bs) ∧
      (size % 2 = 1 → read = .error
        ⟨64, "hex input has an odd number of digits (" ++ toString size ++ ")"⟩) ∧
      (size % 2 = 0 → (∀ bs, ¬Spells digits bs) →
        ∃ before b after, code = before ++ b :: after ∧ (∀ c ∈ before, IsDigitCode c) ∧
          ¬IsDigitCode b ∧
          read = .error ⟨64, "invalid hex input: Invalid character " ++ quotedLatin b ++
            " at position " ++ toString before.length⟩)) ∧
    (∀ bs : Bytes, readHex (hexSpaced bs) = .ok bs) ∧
    ∀ (text : List Char) (bs : Bytes), Writing text bs → readHex (String.ofList text) = .ok bs := by
  refine ⟨fun s => ?_, readHex_hexSpaced, fun text bs h => readHex_of_spells h.spells⟩
  intro digits code size read
  have hsize : size = code.length := by
    show (String.ofList digits).toByteArray.size = code.length
    rw [String.toByteArray_ofList, List.utf8Encode, List.size_toByteArray]
  refine ⟨fun bs => ?_, fun hodd => ?_, fun heven hnone => ?_⟩
  · rw [← readHex_eq_ok_iff]
    exact mapError_eq_ok_iff _ _ _
  · rw [hsize] at hodd ⊢
    show (readHex s).mapError Tool.Failure.ofHex = _
    rw [readHex_of_odd hodd]
    rfl
  · rw [hsize] at heven
    rcases spells_or_stray heven with ⟨bs, hspells⟩ | ⟨before, b, after, hcode, hbefore, hb⟩
    · exact absurd hspells (hnone bs)
    · refine ⟨before, b, after, hcode, fun c hc => ?_, ?_, ?_⟩
      · exact (isDigitCode_iff c).2 (hbefore c hc)
      · rw [isDigitCode_iff, hb]
        rintro ⟨n, hn⟩
        cases hn
      · show (readHex s).mapError Tool.Failure.ofHex = _
        have hcode' : (digitsOf s).flatMap String.utf8EncodeChar = before ++ b :: after := hcode
        rw [readHex_of_even heven, hcode', readPairs_stray hb hbefore (hcode' ▸ heven),
          Nat.zero_add]
        rfl

/-- The theorem for a text with a character beyond ASCII, whose first byte is told, with a mark
before it and a capital behind it. -/
theorem readHex_grammar_beyond_ascii :
    let s := "0x1:éF"
    digitsOf s = ['1', 'é', 'F'] ∧ (String.ofList (digitsOf s)).utf8ByteSize % 2 = 0 ∧
      (∀ bs, ¬Spells (digitsOf s) bs) ∧
      ∃ before b after,
        (digitsOf s).flatMap String.utf8EncodeChar = before ++ b :: after ∧
        (∀ c ∈ before, IsDigitCode c) ∧ ¬IsDigitCode b ∧
        (readHex s).mapError Tool.Failure.ofHex
          = .error ⟨64, "invalid hex input: Invalid character " ++ quotedLatin b ++
            " at position " ++ toString before.length⟩ := by
  intro s
  have hdigits : digitsOf s = ['1', 'é', 'F'] := by decide +kernel
  have heven : (String.ofList (digitsOf s)).utf8ByteSize % 2 = 0 := by decide +kernel
  have hnone : ∀ bs, ¬Spells (digitsOf s) bs := by
    intro bs h
    rw [hdigits] at h
    cases h with
    | cons hhigh hlow h => cases h
  exact ⟨hdigits, heven, hnone, (readHex_grammar.1 s).2.2 heven hnone⟩

/-- Bytes in two groups, one of them marked, with separators around them. -/
example : (readHex " 0X0a,:FF00\n").toOption = some [0x0A, 0xFF, 0x00] := by decide +kernel

end PinBridge.Text
