/-
PinBridge/Proofs/Board/Backlog.lean

The account that a virtual board keeps of what each UART has still to send.

Data for a UART is added to its account, housekeeping takes sixteen bytes off
every account, a soft reset clears them, and nothing else touches them
(`Use.account`).  An account stops at 65535, the largest number that it can
hold.

But the board cuts the length of the data to sixteen bits before it adds it, so
its account is the one of a board that was given less by a multiple of 65536
bytes.  It never tells too much, and it tells too little as soon as such data is
given to a UART whose account has still room for it (`Use.Loses`).

Main statement: `backlog_accounts`.  It rests on `toNat_uartBacklog_apply`,
what one use makes of one account.
-/
import PinBridge.Board.Virtual
import PinBridge.Proofs.Session.Boards

namespace PinBridge

/-- What a call makes of a board. -/
def Call.apply {B : Type} [Board B] : Call → B → B
  | .act a, board => Board.perform a board
  | .inputLevel pin, board => (Board.inputLevel pin board).2
  | .uartBacklog uart, board => (Board.uartBacklog uart board).2
  | .housekeeping, board => Board.housekeeping board

namespace VirtualBoard

/-! ### Uses -/

/-- Something that a virtual board is used for: a call as to any board, or what only a board with no
hardware allows. -/
inductive Use where
  | call (c : Call)
  | driveInput (pin : UInt8) (level : Bool)
  | forgetActions
  deriving DecidableEq, Repr

namespace Use

def apply : Use → VirtualBoard → VirtualBoard
  | .call c, b => c.apply b
  | .driveInput pin level, b => b.driveInput pin level
  | .forgetActions, b => b.forgetActions

/-- One use after the other. -/
def run (uses : List Use) (b : VirtualBoard) : VirtualBoard :=
  uses.foldl (fun b use => use.apply b) b

/-- What a use makes of the account of a UART, if data counts as `counted` says of its length. -/
def account (counted : Nat → Nat) (uart : UInt8) (use : Use) (backlog : Nat) : Nat :=
  match use with
  | .call (.act (.transmit other data)) =>
    if other = uart then min 65535 (backlog + counted data.length) else backlog
  | .call (.act .softReset) => 0
  | .call .housekeeping => backlog - 16
  | _ => backlog

/-- What one use after the other makes of it. -/
def accounts (counted : Nat → Nat) (uart : UInt8) (uses : List Use) (backlog : Nat) : Nat :=
  uses.foldl (fun backlog use => use.account counted uart backlog) backlog

/-- The UART is given more than sixteen bits can count, and its account has room for more than is
counted. -/
def Loses (uart : UInt8) (backlog : Nat) (use : Use) : Prop :=
  ∃ data, use = .call (.act (.transmit uart data)) ∧ 65536 ≤ data.length ∧
    backlog + data.length % 65536 < 65535

theorem account_transmit (counted : Nat → Nat) (uart : UInt8) (data : Bytes) (backlog : Nat) :
    (call (.act (.transmit uart data))).account counted uart backlog
      = min 65535 (backlog + counted data.length) := if_pos rfl

theorem accounts_singleton (counted : Nat → Nat) (uart : UInt8) (use : Use) (backlog : Nat) :
    accounts counted uart [use] backlog = use.account counted uart backlog := rfl

end Use

/-! ### One use -/

theorem toNat_addBacklog (length : Nat) (backlog : UInt16) :
    (addBacklog length backlog).toNat = min 65535 (backlog.toNat + length % 65536) :=
  UInt16.toNat_ofNat_of_lt' (Nat.lt_of_le_of_lt (Nat.min_le_left _ _) (by decide))

theorem toNat_drainBacklog (backlog : UInt16) :
    (drainBacklog backlog).toNat = backlog.toNat - 16 :=
  UInt16.toNat_ofNat_of_lt' (Nat.lt_of_le_of_lt (Nat.sub_le _ _) backlog.toNat_lt)

variable {b : VirtualBoard} {uart : UInt8}

/-- What a use makes of all accounts together. -/
theorem backlogs_apply (use : Use) :
    (use.apply b).backlogs = match use with
      | .call (.act (.transmit other data)) =>
        b.backlogs.modify other.toNat (addBacklog data.length)
      | .call (.act .softReset) => b.backlogs.map fun _ => 0
      | .call .housekeeping => b.backlogs.map drainBacklog
      | _ => b.backlogs := by
  cases use with
  | call c =>
    cases c with
    | act a => cases a <;> rfl
    | _ => rfl
  | _ => rfl

/-- No use adds a UART or takes one away. -/
theorem length_backlogs_apply (use : Use) : (use.apply b).backlogs.length = b.backlogs.length := by
  rw [backlogs_apply]
  split
  · exact List.length_modify ..
  · exact List.length_map ..
  · exact List.length_map ..
  · rfl

/-- **What a use makes of the account that the board keeps of a UART.** -/
theorem toNat_uartBacklog_apply (huart : uart.toNat < b.backlogs.length) (use : Use) :
    ((use.apply b).uartBacklog uart).toNat
      = use.account (· % 65536) uart (b.uartBacklog uart).toNat := by
  have hcell : b.backlogs[uart.toNat]? = some (b.uartBacklog uart) := by
    rw [uartBacklog, List.getD_eq_getElem?_getD, List.getElem?_eq_getElem huart, Option.getD_some]
  rw [uartBacklog, List.getD_eq_getElem?_getD, backlogs_apply]
  unfold Use.account
  split
  next other data =>
    by_cases hother : other = uart
    · subst hother
      rw [if_pos rfl, List.getElem?_modify_eq, hcell]
      exact toNat_addBacklog data.length _
    · have hslot : other.toNat ≠ uart.toNat := fun hslot => hother (UInt8.toNat_inj.1 hslot)
      rw [if_neg hother, List.getElem?_modify_ne _ _ hslot, hcell]
      rfl
  next =>
    rw [List.getElem?_map, hcell]
    rfl
  next =>
    rw [List.getElem?_map, hcell]
    exact toNat_drainBacklog _
  next =>
    rw [hcell]
    rfl

/-- Data whose length is a multiple of 65536 leaves the account as it is. -/
theorem toNat_uartBacklog_of_mod (huart : uart.toNat < b.backlogs.length) {data : Bytes}
    (hdata : data.length % 65536 = 0) :
    (((Use.call (.act (.transmit uart data))).apply b).uartBacklog uart).toNat
      = (b.uartBacklog uart).toNat := by
  have hbacklog : (b.uartBacklog uart).toNat < 65536 := (b.uartBacklog uart).toNat_lt
  rw [toNat_uartBacklog_apply huart, Use.account_transmit, hdata]
  omega

/-! ### The two accounts -/

namespace Use

variable {counted more : Nat → Nat}

/-- Only the length of data for the UART matters to its account. -/
theorem account_congr {use : Use}
    (h : ∀ data, use = .call (.act (.transmit uart data)) → counted data.length = more data.length)
    (backlog : Nat) : use.account counted uart backlog = use.account more uart backlog := by
  unfold account
  split
  next other data =>
    by_cases hother : other = uart
    · subst hother
      rw [if_pos rfl, if_pos rfl, h data rfl]
    · rw [if_neg hother, if_neg hother]
  all_goals rfl

/-- To count no less and to start with no less is to end with no less. -/
theorem account_le (hmore : ∀ n, counted n ≤ more n) {backlog backlog' : Nat}
    (hbacklog : backlog ≤ backlog') (use : Use) :
    use.account counted uart backlog ≤ use.account more uart backlog' := by
  unfold account
  split
  next other data =>
    have := hmore data.length
    split <;> omega
  · exact Nat.le_refl 0
  · exact Nat.sub_le_sub_right hbacklog 16
  · exact hbacklog

/-- **An account is right after a use exactly if the use loses nothing.** -/
theorem account_eq_iff (backlog : Nat) (use : Use) :
    use.account (· % 65536) uart backlog = use.account id uart backlog
      ↔ ¬ use.Loses uart backlog := by
  by_cases hdata : ∃ data, use = .call (.act (.transmit uart data))
  · obtain ⟨data, rfl⟩ := hdata
    have hloses : (call (.act (.transmit uart data))).Loses uart backlog
        ↔ 65536 ≤ data.length ∧ backlog + data.length % 65536 < 65535 := by
      refine ⟨?_, fun h => ⟨data, rfl, h⟩⟩
      rintro ⟨_, ⟨rfl⟩, h⟩
      exact h
    rw [hloses, account_transmit, account_transmit, id]
    omega
  · refine iff_of_true (account_congr (fun data huse => absurd ⟨data, huse⟩ hdata) backlog) ?_
    rintro ⟨data, huse, -⟩
    exact hdata ⟨data, huse⟩

theorem accounts_congr {uses : List Use}
    (h : ∀ data, .call (.act (.transmit uart data)) ∈ uses →
      counted data.length = more data.length) (backlog : Nat) :
    accounts counted uart uses backlog = accounts more uart uses backlog := by
  induction uses generalizing backlog with
  | nil => rfl
  | cons use uses ih =>
    have hfirst : use.account counted uart backlog = use.account more uart backlog :=
      account_congr (fun data huse => h data (huse ▸ List.mem_cons_self)) backlog
    show accounts counted uart uses (use.account counted uart backlog)
      = accounts more uart uses (use.account more uart backlog)
    rw [hfirst]
    exact ih (fun data hmem => h data (List.mem_cons_of_mem use hmem)) _

theorem accounts_le (hmore : ∀ n, counted n ≤ more n) {backlog backlog' : Nat}
    (hbacklog : backlog ≤ backlog') (uses : List Use) :
    accounts counted uart uses backlog ≤ accounts more uart uses backlog' := by
  induction uses generalizing backlog backlog' with
  | nil => exact hbacklog
  | cons use uses ih => exact ih (account_le hmore hbacklog use)

end Use

/-! ### All uses -/

open Use

theorem length_backlogs_run (uses : List Use) :
    (run uses b).backlogs.length = b.backlogs.length := by
  induction uses generalizing b with
  | nil => rfl
  | cons use uses ih => exact (ih (b := use.apply b)).trans (length_backlogs_apply use)

/-- What all uses make of the account of a UART, by what one of them does. -/
theorem toNat_uartBacklog_run (huart : uart.toNat < b.backlogs.length) (uses : List Use) :
    ((run uses b).uartBacklog uart).toNat
      = accounts (· % 65536) uart uses (b.uartBacklog uart).toNat := by
  induction uses generalizing b with
  | nil => rfl
  | cons use uses ih =>
    have hnext : uart.toNat < (use.apply b).backlogs.length := by
      rw [length_backlogs_apply]
      exact huart
    show ((run uses (use.apply b)).uartBacklog uart).toNat
      = accounts (· % 65536) uart uses (use.account (· % 65536) uart (b.uartBacklog uart).toNat)
    rw [ih hnext, toNat_uartBacklog_apply huart]

/-- A new board has nothing to send. -/
theorem uartBacklog_new (limits : BoardLimits) (uart : UInt8) :
    (new limits).uartBacklog uart = 0 := by
  rw [uartBacklog, new, List.getD_eq_getElem?_getD, List.getElem?_replicate]
  split <;> rfl

/-- **A virtual board keeps the account of each UART, but of data it counts the length modulo
65536.**  So an account never tells more than there is to send; it is right if no data for the UART
has 65536 bytes or more; and any further use makes of it what it should, exactly if the use is not
such data for which the account has room left. -/
theorem backlog_accounts (limits : BoardLimits) {uart : UInt8} (huart : uart < limits.uarts)
    (uses : List Use) :
    let b := run uses (.new limits)
    let backlog := (b.uartBacklog uart).toNat
    backlog = accounts (· % 65536) uart uses 0 ∧
      backlog ≤ accounts id uart uses 0 ∧
      ((∀ data, .call (.act (.transmit uart data)) ∈ uses → data.length < 65536) →
        backlog = accounts id uart uses 0) ∧
      ∀ use : Use, ((use.apply b).uartBacklog uart).toNat = use.account id uart backlog
        ↔ ¬ use.Loses uart backlog := by
  intro b backlog
  have hnew : uart.toNat < (new limits).backlogs.length := by
    rw [new, List.length_replicate]
    exact UInt8.lt_iff_toNat_lt.1 huart
  have hkept : backlog = accounts (· % 65536) uart uses 0 := by
    show ((run uses (new limits)).uartBacklog uart).toNat = _
    rw [toNat_uartBacklog_run hnew, uartBacklog_new]
    rfl
  refine ⟨hkept, ?_, fun hshort => ?_, fun use => ?_⟩
  · rw [hkept]
    exact accounts_le (fun n => Nat.mod_le n 65536) (Nat.le_refl 0) uses
  · rw [hkept]
    exact accounts_congr (fun data hmem => Nat.mod_eq_of_lt (hshort data hmem)) 0
  · have hb : uart.toNat < b.backlogs.length := (length_backlogs_run uses).symm ▸ hnew
    rw [toNat_uartBacklog_apply hb]
    exact account_eq_iff backlog use

/-- The theorem for a UART that is given data twice, beside another one and one that is missing. -/
theorem backlog_accounts_of_standard :
    let uses : List Use :=
      [.call (.act (.transmit 2 [1, 2, 3])), .call (.act (.transmit 1 [4])),
        .call (.act (.transmit 200 [5])), .driveInput 7 true,
        .call (.act (.transmit 2 (List.replicate 30 6))), .call .housekeeping]
    (2 : UInt8) < BoardLimits.standard.uarts ∧ accounts id 2 uses 0 = 17 ∧
      ((run uses (.new .standard)).uartBacklog 2).toNat = 17 := by
  intro uses
  have huart : (2 : UInt8) < BoardLimits.standard.uarts := by decide
  have hshort : ∀ data, .call (.act (.transmit 2 data)) ∈ uses → data.length < 65536 := by
    intro data hmem
    have hdata : data = [1, 2, 3] ∨ data = List.replicate 30 6 := by simpa [uses] using hmem
    rcases hdata with rfl | rfl <;> decide
  refine ⟨huart, by decide, ?_⟩
  exact ((backlog_accounts .standard huart uses).2.2.1 hshort).trans (by decide)

/-- One byte more than sixteen bits can count. -/
def longData : Bytes := List.replicate 65536 0

theorem length_longData : longData.length = 65536 := List.length_replicate

/-- A UART is given 65536 bytes at once, and the board takes it to have nothing to send. -/
theorem long_data_forgotten :
    let uses : List Use := [.call (.act (.transmit 0 longData))]
    let bench : Bench VirtualBoard := ⟨.new .standard, .empty 0⟩
    (stateOf (respond .standard (.twoWay (.uartData 0 longData)) [] bench)).board
        = run uses (.new .standard) ∧
      ((run uses (.new .standard)).uartBacklog 0).toNat = 0 ∧ accounts id 0 uses 0 = 65535 := by
  intro uses bench
  refine ⟨rfl, ?_, ?_⟩
  · have hmod : longData.length % 65536 = 0 := by rw [length_longData]
    exact toNat_uartBacklog_of_mod (by decide) hmod
  · rw [accounts_singleton, account_transmit, id, length_longData]
    decide

end VirtualBoard
end PinBridge
