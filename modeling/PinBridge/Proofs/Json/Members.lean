/-
PinBridge/Proofs/Json/Members.lean

Objects that give some of the fields of a record.

An object may give the fields of a record in any order, and may leave some of
them out.  It may have members with other names, too, that nobody looks at
(`Gives`).  A name of the record stands once at most, so that it does not matter
which member with that name is found first.

Main statement: `Gives.fields?_eq`, the fields that an object gives are found.
-/
import PinBridge.Json.Fields

namespace PinBridge.Json

/-- An object that gives the picked ones of these fields, in any order, and besides them whatever it
likes under other names. -/
inductive Gives (fields : List (String × Json)) (pick : String → Bool) : Json → Prop
  | intro {unknown members : List (String × Json)}
      (hunknown : ∀ member ∈ unknown, member.1 ∉ fields.map Prod.fst)
      (horder : members.Perm (fields.filter (fun field => pick field.1) ++ unknown)) :
      Gives fields pick (.ofFields members)

section Lookup

variable {α : Type} {name : String} {members members' : List (String × α)}

theorem lookup_map_some (name : String) (members : List (String × α)) :
    (members.map fun (key, value) => (some key, value)).lookup (some name)
      = members.lookup name := by
  induction members with
  | nil => rfl
  | cons member members ih =>
    obtain ⟨key, value⟩ := member
    rw [List.map_cons, List.lookup_cons, List.lookup_cons, ih]
    rfl

theorem countKey_map_some (name : String) (members : List (String × Json)) :
    countKey name (members.map fun (key, value) => (some key, value))
      = members.countP (·.1 == name) := by
  rw [countKey, List.countP_map]
  rfl

/-- The value found is that of the first member with the name. -/
theorem lookup_eq_head_filter (name : String) (members : List (String × α)) :
    members.lookup name = (members.filter (·.1 == name)).head?.map Prod.snd := by
  induction members with
  | nil => rfl
  | cons member members ih =>
    obtain ⟨key, value⟩ := member
    by_cases hkey : key = name
    · subst hkey
      have hself : ((key, value).1 == key) = true := beq_self_eq_true key
      rw [List.lookup_cons_self, List.filter_cons, if_pos hself]
      rfl
    · have hother : (name == key) = false := beq_false_of_ne (Ne.symm hkey)
      rw [List.lookup_cons, hother, List.filter_cons_of_neg (by simpa using hkey), ← ih]

/-- Where a name stands once at most, the order makes no difference. -/
theorem lookup_eq_of_perm (hperm : members.Perm members')
    (hone : members'.countP (·.1 == name) ≤ 1) : members.lookup name = members'.lookup name := by
  have hfilter := hperm.filter (·.1 == name)
  rw [List.countP_eq_length_filter] at hone
  rw [lookup_eq_head_filter, lookup_eq_head_filter]
  cases hfound : members'.filter (·.1 == name) with
  | nil =>
    rw [hfound] at hfilter
    rw [hfilter.eq_nil]
  | cons member others =>
    rw [hfound] at hfilter hone
    obtain rfl : others = [] := List.eq_nil_of_length_eq_zero (by grind)
    rw [hfilter.eq_singleton]

/-- A name stands at most once among different names. -/
theorem countP_le_one (hnodup : (members.map Prod.fst).Nodup) (name : String) :
    members.countP (·.1 == name) ≤ 1 := by
  have hcount : (members.map Prod.fst).count name ≤ 1 := by
    rw [hnodup.count]
    split <;> decide
  rwa [List.count, List.countP_map] at hcount

theorem lookup_of_mem (hnodup : (members.map Prod.fst).Nodup) {member : String × α}
    (hmem : member ∈ members) : members.lookup member.1 = some member.2 := by
  induction members with
  | nil => cases hmem
  | cons first members ih =>
    obtain ⟨hfirst, hnodup⟩ := List.nodup_cons.1 hnodup
    rcases List.mem_cons.1 hmem with rfl | hmem
    · exact List.lookup_cons_self
    · -- the first member has another name, since no name is repeated
      have hother : (member.1 == first.1) = false := by
        refine beq_false_of_ne fun heq => hfirst ?_
        rw [← heq]
        exact List.mem_map_of_mem hmem
      rw [List.lookup_cons, hother]
      exact ih hnodup hmem

/-- Members that are left out are not found, and the others as before. -/
theorem lookup_filter (pick : String → Bool) (name : String) (members : List (String × α)) :
    (members.filter fun member => pick member.1).lookup name
      = if pick name then members.lookup name else none := by
  induction members with
  | nil => exact (ite_self none).symm
  | cons member members ih =>
    obtain ⟨key, value⟩ := member
    by_cases hkey : name = key
    · subst hkey
      cases hpick : pick name with
      | false =>
        rw [hpick] at ih
        rw [List.filter_cons, if_neg (by simp [hpick]), ih]
        rfl
      | true =>
        rw [List.filter_cons, if_pos hpick, List.lookup_cons_self, if_pos rfl,
          List.lookup_cons_self]
    · have hother : (name == key) = false := beq_false_of_ne hkey
      rw [List.lookup_cons, hother, ← ih, List.filter_cons]
      split
      · rw [List.lookup_cons, hother]
      · rfl

end Lookup

/-- The fields of a record are found, and no other member is looked at. -/
theorem Gives.fields?_eq {fields : List (String × Json)} {pick : String → Bool} {v : Json}
    (h : v.Gives fields pick) (hnodup : (fields.map Prod.fst).Nodup) :
    v.fields? (fields.map Prod.fst)
      = some (fields.map fun field => if pick field.1 then some field.2 else none) := by
  obtain @⟨unknown, members, hunknown, horder⟩ := h
  have hpicked : ((fields.filter fun field => pick field.1).map Prod.fst).Nodup :=
    hnodup.sublist (List.filter_sublist.map Prod.fst)
  have hnone : ∀ name ∈ fields.map Prod.fst, ∀ member ∈ unknown, (name != member.1) = true := by
    intro name hname member hmember
    exact bne_iff_ne.2 fun heq => hunknown member hmember (heq ▸ hname)
  have hone : ∀ name ∈ fields.map Prod.fst, members.countP (·.1 == name) ≤ 1 := by
    intro name hname
    have hzero : unknown.countP (·.1 == name) = 0 := by
      rw [List.countP_eq_zero]
      intro member hmember heq
      exact hunknown member hmember (eq_of_beq heq ▸ hname)
    rw [horder.countP_eq, List.countP_append, hzero]
    exact countP_le_one hpicked name
  have hlookup : ∀ field ∈ fields,
      (members.map fun (key, value) => (some key, value)).lookup (some field.1)
        = if pick field.1 then some field.2 else none := by
    intro field hfield
    have hname := List.mem_map_of_mem (f := Prod.fst) hfield
    have hmissing : unknown.lookup field.1 = none := List.lookup_eq_none_iff.2 (hnone _ hname)
    rw [lookup_map_some, lookup_eq_of_perm horder (horder.countP_eq _ ▸ hone _ hname),
      List.lookup_append, hmissing, Option.or_none, lookup_filter, lookup_of_mem hnodup hfield]
  -- the object is read at all: its keys are texts, and none of the fields stands twice
  have htexts : (members.map fun (key, value) => (some key, value)).any
      (fun member => member.1.isNone) = false := by
    rw [List.any_map, List.any_eq_false]
    exact fun member _ => Bool.false_ne_true
  have honce : (fields.map Prod.fst).any (fun name =>
      1 < countKey name (members.map fun (key, value) => (some key, value))) = false := by
    rw [List.any_eq_false]
    intro name hname
    rw [countKey_map_some]
    exact fun hlt => absurd (of_decide_eq_true hlt) (Nat.not_lt.2 (hone name hname))
  rw [ofFields, Json.fields?, htexts, honce, List.map_map]
  exact congrArg some (List.map_congr_left hlookup)

/-- A field is read if it is picked, and else it is the default. -/
theorem withDefault_picked {α : Type} {read : Json → Option α} {v : Json} {a : α}
    (hread : read v = some a) (default : α) (pick : Bool) :
    withDefault default read (if pick then some v else none)
      = some (if pick then a else default) := by
  cases pick with
  | false => rfl
  | true => exact hread

/-! ### Values of fields -/

theorem natUpTo?_natural {n max : Nat} (h : n ≤ max) : natUpTo? max (.natural n) = some n :=
  if_pos h

theorem uint8?_natural (n : UInt8) : uint8? (.natural n.toNat) = some n := by
  have hsmall : n.toNat ≤ UInt8.size - 1 := Nat.le_sub_one_of_lt n.toNat_lt
  rw [uint8?, natUpTo?_natural hsmall, Option.map_some, UInt8.ofNat_toNat]

theorem uint16?_natural (n : UInt16) : uint16? (.natural n.toNat) = some n := by
  have hsmall : n.toNat ≤ UInt16.size - 1 := Nat.le_sub_one_of_lt n.toNat_lt
  rw [uint16?, natUpTo?_natural hsmall, Option.map_some, UInt16.ofNat_toNat]

theorem uint64?_natural (n : UInt64) : uint64? (.natural n.toNat) = some n := by
  have hsmall : n.toNat ≤ UInt64.size - 1 := Nat.le_sub_one_of_lt n.toNat_lt
  rw [uint64?, natUpTo?_natural hsmall, Option.map_some, UInt64.ofNat_toNat]

end PinBridge.Json
