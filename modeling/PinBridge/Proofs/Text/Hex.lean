/-
PinBridge/Proofs/Text/Hex.lean

Byte dumps read back.

A dump has one space between two bytes, so the reader finds a group of two
digits for each byte.  Such a group never starts with the mark of hexadecimal
numbers, since its second character is a digit and no `x`; hence nothing is
taken away from it, and what is left are all the digits, in pairs.

Main statements: `readHex_hexSpaced`, a dump is read as the bytes it was written
from; and `intercalate_hexSpaced`, dumps with a space between them are the dump
of all their bytes.
-/
import PinBridge.Text.HexReader

namespace PinBridge.Text

/-! ### Digits -/

/-- What the reader has to know of a digit: it separates nothing, marks nothing, and is one byte
with the digit's value. -/
theorem hexDigit_spec : ∀ n < 16, isSeparator (hexDigit n) = false ∧
    hexDigit n ≠ 'x' ∧ hexDigit n ≠ 'X' ∧
    (String.utf8EncodeChar (hexDigit n)).map digitValue? = [some n] := by
  decide

theorem high_lt (b : UInt8) : b.toNat / 16 < 16 := by
  have := b.toNat_lt
  omega

theorem low_lt (b : UInt8) : b.toNat % 16 < 16 := Nat.mod_lt _ (by decide)

theorem isSeparator_of_mem_hexPair {b : UInt8} {c : Char} (h : c ∈ hexPair b) :
    isSeparator c = false := by
  rcases List.mem_cons.1 h with rfl | h
  · exact (hexDigit_spec _ (high_lt b)).1
  · obtain rfl := List.mem_singleton.1 h
    exact (hexDigit_spec _ (low_lt b)).1

/-- A digit in UTF-8. -/
theorem exists_utf8_hexDigit {n : Nat} (h : n < 16) :
    ∃ code : UInt8, String.utf8EncodeChar (hexDigit n) = [code] ∧ digitValue? code = some n := by
  obtain ⟨-, -, -, hvalue⟩ := hexDigit_spec n h
  exact List.map_eq_singleton_iff.1 hvalue

theorem unmarked_of_ne {a c : Char} {cs : List Char} (hx : c ≠ 'x') (hX : c ≠ 'X') :
    unmarked (a :: c :: cs) = a :: c :: cs := by
  unfold unmarked
  split
  next heq => exact absurd (List.cons.inj (List.cons.inj heq).2).1 hx
  next heq => exact absurd (List.cons.inj (List.cons.inj heq).2).1 hX
  next => rfl

theorem unmarked_hexPair (b : UInt8) : unmarked (hexPair b) = hexPair b := by
  obtain ⟨-, hx, hX, -⟩ := hexDigit_spec _ (low_lt b)
  exact unmarked_of_ne hx hX

/-! ### Groups -/

theorem groups_eq_singleton {group : List Char} (h : ∀ c ∈ group, isSeparator c = false) :
    groups group = [group] := by
  induction group with
  | nil => rfl
  | cons c cs ih =>
    obtain ⟨hc, hcs⟩ := List.forall_mem_cons.1 h
    rw [groups, hc, if_neg Bool.false_ne_true, ih hcs]

/-- A separator ends a group. -/
theorem groups_append_cons {group : List Char} (h : ∀ c ∈ group, isSeparator c = false)
    {separator : Char} (hseparator : isSeparator separator = true) (rest : List Char) :
    groups (group ++ separator :: rest) = group :: groups rest := by
  induction group with
  | nil => rw [List.nil_append, groups, if_pos hseparator]
  | cons c cs ih =>
    obtain ⟨hc, hcs⟩ := List.forall_mem_cons.1 h
    rw [List.cons_append, groups, hc, if_neg Bool.false_ne_true, ih hcs]

/-- Groups with one separator between two of them are found again. -/
theorem groups_intercalate {separator : Char} (hseparator : isSeparator separator = true)
    {gs : List (List Char)} (hne : gs ≠ []) (h : ∀ g ∈ gs, ∀ c ∈ g, isSeparator c = false) :
    groups ([separator].intercalate gs) = gs := by
  induction gs with
  | nil => exact absurd rfl hne
  | cons g gs ih =>
    obtain ⟨hg, hgs⟩ := List.forall_mem_cons.1 h
    cases gs with
    | nil => rw [List.intercalate_singleton, groups_eq_singleton hg]
    | cons g' gs =>
      rw [List.intercalate_cons_cons, List.append_assoc, List.singleton_append,
        groups_append_cons hg hseparator, ih (List.cons_ne_nil _ _) hgs]

/-- The digits of a dump are those of its bytes. -/
theorem digitBytes_hexSpaced (bs : Bytes) :
    digitBytes (hexSpaced bs) = (bs.flatMap hexPair).flatMap String.utf8EncodeChar := by
  have hunmarked : ∀ bs : Bytes, (bs.map hexPair).flatMap unmarked = bs.flatMap hexPair := by
    intro bs
    rw [List.flatMap_map]
    exact congrArg bs.flatMap (funext unmarked_hexPair)
  rw [digitBytes, hexSpaced, String.toList_ofList]
  cases bs with
  | nil => rfl
  | cons b bs =>
    have hgroups : groups ([' '].intercalate ((b :: bs).map hexPair)) = (b :: bs).map hexPair := by
      refine groups_intercalate (by decide) (List.cons_ne_nil _ _) fun g hg c hc => ?_
      obtain ⟨b', -, rfl⟩ := List.mem_map.1 hg
      exact isSeparator_of_mem_hexPair hc
    rw [hgroups, hunmarked]

/-! ### Pairs -/

theorem digitAt_of_value {code : UInt8} {n : Nat} (h : digitValue? code = some n)
    (position : Nat) : digitAt position code = .ok n := by
  rw [digitAt, h]

/-- The two digits of a byte are two bytes in UTF-8, and read as that byte. -/
theorem readPairs_hexPair (b : UInt8) (rest : Bytes) (position : Nat) :
    readPairs position ((hexPair b).flatMap String.utf8EncodeChar ++ rest)
      = (readPairs (position + 2) rest).map (b :: ·) := by
  obtain ⟨high, hhigh, hhighValue⟩ := exists_utf8_hexDigit (high_lt b)
  obtain ⟨low, hlow, hlowValue⟩ := exists_utf8_hexDigit (low_lt b)
  have hcodes : (hexPair b).flatMap String.utf8EncodeChar = [high, low] := by
    simp only [hexPair, List.flatMap_cons, List.flatMap_nil, hhigh, hlow, List.append_nil,
      List.singleton_append]
  have hbyte : UInt8.ofNat (b.toNat / 16 * 16 + b.toNat % 16) = b := by
    rw [Nat.div_add_mod' b.toNat 16, UInt8.ofNat_toNat]
  rw [hcodes, List.cons_append, List.cons_append, List.nil_append, readPairs,
    digitAt_of_value hhighValue, digitAt_of_value hlowValue]
  simp only [bind, Except.bind, pure, Except.pure, hbyte]
  cases readPairs (position + 2) rest <;> rfl

theorem readPairs_flatMap (bs : Bytes) (position : Nat) :
    readPairs position ((bs.flatMap hexPair).flatMap String.utf8EncodeChar) = .ok bs := by
  induction bs generalizing position with
  | nil => rfl
  | cons b bs ih =>
    rw [List.flatMap_cons, List.flatMap_append, readPairs_hexPair, ih]
    rfl

/-- Two digits to a byte. -/
theorem length_digits (bs : Bytes) :
    ((bs.flatMap hexPair).flatMap String.utf8EncodeChar).length = 2 * bs.length := by
  induction bs with
  | nil => rfl
  | cons b bs ih =>
    obtain ⟨high, hhigh, -⟩ := exists_utf8_hexDigit (high_lt b)
    obtain ⟨low, hlow, -⟩ := exists_utf8_hexDigit (low_lt b)
    rw [List.flatMap_cons, List.flatMap_append, List.length_append, ih, hexPair]
    simp only [List.flatMap_cons, List.flatMap_nil, hhigh, hlow, List.length_append,
      List.length_cons, List.length_nil]
    omega

/-- **A dump is read as the bytes that it was written from.** -/
theorem readHex_hexSpaced (bs : Bytes) : readHex (hexSpaced bs) = .ok bs := by
  have heven : ¬(digitBytes (hexSpaced bs)).length % 2 = 1 := by
    rw [digitBytes_hexSpaced, length_digits]
    omega
  rw [readHex, if_neg heven, digitBytes_hexSpaced, readPairs_flatMap]

/-! ### Dumps side by side -/

/-- Two parts that both hold something are joined by one separator. -/
theorem intercalate_append {α : Type} {separator : List α} {first second : List (List α)}
    (hfirst : first ≠ []) (hsecond : second ≠ []) :
    separator.intercalate (first ++ second)
      = separator.intercalate first ++ separator ++ separator.intercalate second := by
  induction first with
  | nil => exact absurd rfl hfirst
  | cons x first ih =>
    cases first with
    | nil =>
      rw [List.singleton_append, List.intercalate_cons_of_ne_nil hsecond,
        List.intercalate_singleton]
    | cons x' first =>
      rw [List.cons_append, List.cons_append, List.intercalate_cons_cons, ← List.cons_append,
        ih (List.cons_ne_nil _ _), List.intercalate_cons_cons]
      simp only [List.append_assoc]

/-- What is joined in parts is joined as a whole, if no part is empty. -/
theorem intercalate_flatten {α : Type} {separator : List α} {parts : List (List (List α))}
    (h : ∀ part ∈ parts, part ≠ []) :
    separator.intercalate (parts.map separator.intercalate)
      = separator.intercalate parts.flatten := by
  induction parts with
  | nil => rfl
  | cons part parts ih =>
    obtain ⟨hpart, hparts⟩ := List.forall_mem_cons.1 h
    cases parts with
    | nil => rw [List.map_singleton, List.intercalate_singleton, List.flatten_singleton]
    | cons part' parts =>
      have hrest : (part' :: parts).flatten ≠ [] := by
        rw [List.flatten_cons]
        exact List.append_ne_nil_of_left_ne_nil (hparts part' List.mem_cons_self) _
      have hmap : (part' :: parts).map separator.intercalate ≠ [] := List.cons_ne_nil _ _
      rw [List.flatten_cons, intercalate_append hpart hrest, List.map_cons,
        List.intercalate_cons_of_ne_nil hmap, ih hparts]

/-- **Dumps with a space between them are the dump of all their bytes**, unless one of them is
empty. -/
theorem intercalate_hexSpaced {parts : List Bytes} (h : ∀ part ∈ parts, part ≠ []) :
    " ".intercalate (parts.map hexSpaced) = hexSpaced parts.flatten := by
  have hpairs : ∀ pairs ∈ parts.map (·.map hexPair), pairs ≠ [] := by
    intro pairs hmem
    obtain ⟨part, hpart, rfl⟩ := List.mem_map.1 hmem
    exact fun hnil => h part hpart (List.map_eq_nil_iff.1 hnil)
  have hspace : " ".toList = [' '] := rfl
  have hlists : (parts.map hexSpaced).map String.toList
      = (parts.map (·.map hexPair)).map [' '].intercalate := by
    rw [List.map_map, List.map_map]
    exact List.map_congr_left fun part _ => String.toList_ofList
  rw [← String.toList_inj, String.toList_intercalate, hspace, hlists, intercalate_flatten hpairs,
    hexSpaced, String.toList_ofList, List.map_flatten]

end PinBridge.Text
