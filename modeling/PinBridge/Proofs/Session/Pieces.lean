/-
PinBridge/Proofs/Session/Pieces.lean

A session that takes a stream in pieces, up to the first piece that fails.

Until a hard reset ends the session, pieces one after the other come to what
they come to as one, failure included (`receiveAll_eq`).  The byte that
completes the reset is the last one that is carried out: a stream that ends the
session has a shortest front that does (`exists_endedBy`), and behind that front
the receiver stands between two messages (`EndedBy.reception_eq`).

From there on the cuts show.  What the piece with the last byte of the front
holds besides is received and not carried out (`receive_endedBy`), and the
pieces behind it are refused (`receiveAll_endedBy`).
-/
import Mathlib.Data.List.Induction
import Mathlib.Data.List.TakeDrop
import PinBridge.Proofs.Session.Chunks

namespace PinBridge

/-! ### Where a front ends among pieces -/

namespace Wire

/-- Of the bytes behind a front, those that lie in the piece with its last byte. -/
def pieceRest (size : Nat) (front rest : Bytes) : Bytes :=
  rest.take ((size - front.length % size) % size)

theorem chunkSteps_eq_nil_iff {steps size : Nat} {bs : Bytes} (hsteps : bs.length ≤ steps) :
    chunkSteps steps size bs = [] ↔ bs = [] := by
  cases bs with
  | nil => cases steps <;> simp [chunkSteps]
  | cons b bs =>
    cases steps with
    | zero => simp at hsteps
    | succ steps => simp [chunkSteps]

/-- One piece holds the last byte of a front, and the next bytes behind it. -/
theorem chunkSteps_append {steps size : Nat} (hsize : 0 < size) {front : Bytes}
    (hfront : front ≠ []) (rest : Bytes) (hsteps : (front ++ rest).length ≤ steps) :
    ∃ (before : List Bytes) (last : Bytes) (after : List Bytes),
      chunkSteps steps size (front ++ rest)
        = before ++ (last ++ pieceRest size front rest) :: after ∧
      before.flatten ++ last = front ∧ last ≠ [] ∧
      (after = [] ↔ pieceRest size front rest = rest) := by
  induction steps generalizing front with
  | zero =>
    have hempty : front ++ rest = [] := List.length_eq_zero_iff.1 (Nat.le_zero.1 hsteps)
    exact absurd (List.append_eq_nil_iff.1 hempty).1 hfront
  | succ steps ih =>
    have hpos : 0 < front.length := List.length_pos_iff.2 hfront
    have hrest : ((front ++ rest).drop size).length ≤ steps := by
      rw [List.length_drop]
      omega
    have hcut : chunkSteps (steps + 1) size (front ++ rest)
        = (front ++ rest).take size :: chunkSteps steps size ((front ++ rest).drop size) := by
      simp [chunkSteps, hfront]
    rw [hcut]
    rcases Nat.lt_or_ge size front.length with hlong | hshort
    · -- the front goes on in the next piece, where its last byte lies as before
      have htake : (front ++ rest).take size = front.take size :=
        List.take_append_of_le_length (Nat.le_of_lt hlong)
      have hdrop : (front ++ rest).drop size = front.drop size ++ rest :=
        List.drop_append_of_le_length (Nat.le_of_lt hlong)
      have hne : front.drop size ≠ [] := by
        intro hnil
        have hlength := congrArg List.length hnil
        rw [List.length_drop, List.length_nil] at hlength
        omega
      have hsame : pieceRest size (front.drop size) rest = pieceRest size front rest := by
        rw [pieceRest, List.length_drop, ← Nat.mod_eq_sub_mod (Nat.le_of_lt hlong), pieceRest]
      rw [hdrop] at hrest
      obtain ⟨before, last, after, hpieces, hfull, hlast, hafter⟩ := ih hne hrest
      rw [hsame] at hpieces hafter
      refine ⟨front.take size :: before, last, after, ?_, ?_, hlast, hafter⟩
      · rw [htake, hdrop, hpieces, List.cons_append]
      · rw [List.flatten_cons, List.append_assoc, hfull, List.take_append_drop]
    · -- the front ends in this piece
      have hroom : (size - front.length % size) % size = size - front.length := by
        rcases Nat.lt_or_eq_of_le hshort with hlt | heq
        · rw [Nat.mod_eq_of_lt hlt, Nat.mod_eq_of_lt (by omega)]
        · rw [heq, Nat.mod_self, Nat.sub_zero, Nat.mod_self, Nat.sub_self]
      have hseen : pieceRest size front rest = rest.take (size - front.length) := by
        rw [pieceRest, hroom]
      have htake : (front ++ rest).take size = front ++ rest.take (size - front.length) := by
        rw [List.take_append, List.take_of_length_le hshort]
      have hdrop : (front ++ rest).drop size = rest.drop (size - front.length) := by
        rw [List.drop_append, List.drop_of_length_le hshort, List.nil_append]
      refine ⟨[], front, chunkSteps steps size ((front ++ rest).drop size), ?_, ?_, hfront, ?_⟩
      · rw [htake, hseen, List.nil_append]
      · rw [List.flatten_nil, List.nil_append]
      · rw [chunkSteps_eq_nil_iff hrest, hdrop, hseen, List.drop_eq_nil_iff,
          List.take_eq_self_iff]

/-- **Where a front ends among pieces**: one piece holds its last byte, and the next bytes of the
rest. -/
theorem chunksOf_append {size : Nat} (hsize : 0 < size) {front : Bytes} (hfront : front ≠ [])
    (rest : Bytes) :
    ∃ (before : List Bytes) (last : Bytes) (after : List Bytes),
      chunksOf size (front ++ rest) = before ++ (last ++ pieceRest size front rest) :: after ∧
      before.flatten ++ last = front ∧ last ≠ [] ∧
      (after = [] ↔ pieceRest size front rest = rest) :=
  chunkSteps_append hsize hfront rest (Nat.le_refl _)

end Wire

/-! ### The last step of a pass -/

/-- A pass that changes the state of the handler ends with handing a message over. -/
theorem Receiver.advance_delivers {d : Direction} {ε σ : Type} (ofStream : StreamError → ε)
    (handle : Handler d ε σ) (r : Receiver) (s : σ) :
    (stateOf (advance ofStream handle r s)).2 = s ∨
      ∃ (r' : Receiver) (received : Received d),
        advance ofStream handle r s = r'.deliver handle received s := by
  fun_induction advance ofStream handle r s with
  | case1 r hzero r' hturn ih => exact ih
  | case2 r hzero received hturn => exact .inr ⟨r, received, rfl⟩
  | case3 r hzero tag hturn => exact .inl (stateOf_fail r _ s)
  | case4 r hpos => exact .inl rfl

namespace Session

variable {B : Type} [Board B] {settings : Settings} {s : Session B}

/-! ### Until the session has ended -/

theorem ends_nil (hrunning : s.receiver.halted = false) : s.ends [] = false := by
  rw [ends, reception_nil hrunning]
  rfl

/-- An end is not undone by what comes behind it. -/
theorem ends_append (h : s.Coherent settings) (hrunning : s.receiver.halted = false) {a : Bytes}
    (ha : s.ends a = true) (b : Bytes) : s.ends (a ++ b) = true := by
  rw [ends] at ha ⊢
  rw [reception_append h hrunning]
  cases hfirst : s.reception a with
  | error e left =>
    rw [hfirst] at ha
    exact ha
  | ok _ left =>
    obtain ⟨receiver, r⟩ := left
    rw [hfirst] at ha
    have hsame := Receiver.stateOf_feed_idle (idle_of_ended s.settings.board ha)
      SessionError.stream b receiver
    exact (congrArg Reception.ended hsame).trans ha

/-- A session that a chunk has not ended goes on as if the chunk went on. -/
theorem receive_of_ok (h : s.Coherent settings) (hrunning : s.receiver.halted = false)
    {a : Bytes} (ha : s.ends a = false) {s' : Session B} (hok : receive a s = .ok () s') :
    s'.Coherent settings ∧ s'.receiver.halted = false ∧
      ∀ b, receive (a ++ b) s = receive b s' ∧ s.ends (a ++ b) = s'.ends b := by
  have hcoherent := h.receive a
  rw [hok] at hcoherent
  rw [receive_eq] at hok
  cases hfirst : s.reception a with
  | error e left =>
    rw [hfirst] at hok
    cases hok
  | ok _ left =>
    obtain ⟨receiver, r⟩ := left
    have hended : r.ended = false := by
      rw [ends, hfirst] at ha
      exact ha
    obtain ⟨-, hhalted⟩ := Receiver.coherent_of_feed h.receiver hrunning hfirst
    rw [hfirst] at hok
    cases hok
    refine ⟨hcoherent, ?_, fun b => ⟨receive_append h hrunning hfirst hended b, ?_⟩⟩
    · rw [receiver_settle, hended]
      exact hhalted
    · rw [ends, ends, reception_append h hrunning, hfirst, reception_settle hended]

/-- Two chunks, the first of which does not end the session, are one. -/
theorem receive_bind (h : s.Coherent settings) (hrunning : s.receiver.halted = false) {a : Bytes}
    (ha : s.ends a = false) (b : Bytes) :
    EStateM.bind (receive a) (fun _ => receive b) s = receive (a ++ b) s := by
  rw [EStateM.bind]
  cases hfirst : receive a s with
  | ok _ s' =>
    obtain ⟨-, -, hgoes⟩ := receive_of_ok h hrunning ha hfirst
    exact (hgoes b).1.symm
  | error e s' =>
    -- the rest of the one chunk is not looked at
    rw [receive_eq] at hfirst
    cases hreception : s.reception a with
    | ok _ left =>
      rw [hreception] at hfirst
      cases hfirst
    | error e' left =>
      rw [hreception] at hfirst
      rw [receive_eq, reception_append h hrunning, hreception]
      exact hfirst.symm

theorem receiveAll_cons (chunk : Bytes) (chunks : List Bytes) (s : Session B) :
    receiveAll (chunk :: chunks) s
      = EStateM.bind (receive chunk) (fun _ => receiveAll chunks) s := rfl

/-- Pieces that do not end the session, and whatever comes behind them. -/
theorem receiveAll_append (h : s.Coherent settings) (hrunning : s.receiver.halted = false)
    {pieces : List Bytes} (hends : s.ends pieces.flatten = false) (chunks : List Bytes) :
    receiveAll (pieces ++ chunks) s
      = EStateM.bind (receive pieces.flatten) (fun _ => receiveAll chunks) s := by
  induction pieces generalizing s with
  | nil => rw [List.nil_append, List.flatten_nil, EStateM.bind, receive_nil hrunning]
  | cons piece pieces ih =>
    rw [List.flatten_cons] at hends ⊢
    have hpiece : s.ends piece = false := by
      cases hended : s.ends piece with
      | false => rfl
      | true => rw [ends_append h hrunning hended] at hends; cases hends
    rw [List.cons_append, receiveAll_cons]
    rw [EStateM.bind, EStateM.bind, ← receive_bind h hrunning hpiece, EStateM.bind]
    cases hfirst : receive piece s with
    | error e s' => rfl
    | ok _ s' =>
      obtain ⟨hcoherent, hhalted, hgoes⟩ := receive_of_ok h hrunning hpiece hfirst
      rw [(hgoes pieces.flatten).2] at hends
      exact ih hcoherent hhalted hends

/-- **Pieces that do not end the session come to what they come to as one.** -/
theorem receiveAll_eq (h : s.Coherent settings) (hrunning : s.receiver.halted = false)
    {pieces : List Bytes} (hends : s.ends pieces.flatten = false) :
    receiveAll pieces s = receive pieces.flatten s := by
  have happend := receiveAll_append h hrunning hends []
  rw [List.append_nil, EStateM.bind] at happend
  rw [happend]
  cases receive pieces.flatten s <;> rfl

/-! ### The end of the session -/

/-- The session ends with the byte `b` behind `bs`. -/
structure EndedBy (s : Session B) (bs : Bytes) (b : UInt8) : Prop where
  earlier : s.ends bs = false
  ends : s.ends (bs ++ [b]) = true

/-- What ends a session ends it with one of its bytes. -/
theorem exists_endedBy (hrunning : s.receiver.halted = false) {stream : Bytes}
    (hends : s.ends stream = true) :
    ∃ bs b rest, bs ++ [b] ++ rest = stream ∧ s.EndedBy bs b := by
  induction stream using List.reverseRecOn with
  | nil =>
    rw [ends_nil hrunning] at hends
    cases hends
  | append_singleton stream b ih =>
    cases hearlier : s.ends stream with
    | true =>
      obtain ⟨bs, b', rest, rfl, hended⟩ := ih hearlier
      exact ⟨bs, b', rest ++ [b], (List.append_assoc _ _ _).symm, hended⟩
    | false => exact ⟨stream, b, [], List.append_nil _, hearlier, hends⟩

/-- What lies before the last byte has not ended the session. -/
theorem EndedBy.of_prefix {bs front : Bytes} {b : UInt8} (hended : s.EndedBy bs b)
    (h : s.Coherent settings) (hrunning : s.receiver.halted = false)
    (hstart : front <+: bs) : s.ends front = false := by
  obtain ⟨rest, rfl⟩ := hstart
  cases hends : s.ends front with
  | false => rfl
  | true =>
    have hearlier := hended.earlier
    rw [ends_append h hrunning hends] at hearlier
    cases hearlier

/-- A command that ends the session does not fail. -/
theorem ended_of_handle_error {limits : BoardLimits} {received : Received .incoming}
    {r r' : Reception B} {e : SessionError} (hrunning : r.ended = false)
    (h : Reception.handle limits received r = .error e r') : r'.ended = false := by
  rw [Reception.handle_of_running hrunning] at h
  split at h
  · cases h
  · cases h
    rfl

/-- Where the session ends the receiver stands between two messages. -/
theorem EndedBy.reception_eq {bs : Bytes} {b : UInt8} (hended : s.EndedBy bs b)
    (h : s.Coherent settings) (hrunning : s.receiver.halted = false) :
    ∃ (r : Receiver) (ended : Reception B), ended.ended = true ∧ r.halted = false ∧
      r.recovery = settings.recovery ∧ s.reception (bs ++ [b]) = .ok () (r.restart, ended) := by
  let handle : Handler .incoming SessionError (Reception B) := Reception.handle s.settings.board
  obtain ⟨hearlier, hends⟩ := hended
  have hreception := reception_append h hrunning bs [b]
  unfold Session.ends at hearlier hends
  cases hfirst : s.reception bs with
  | error e left =>
    rw [hfirst] at hreception hearlier
    rw [hreception] at hends
    exact absurd (hearlier.symm.trans hends) Bool.false_ne_true
  | ok _ left =>
    obtain ⟨receiver, r⟩ := left
    rw [hfirst] at hreception hearlier
    have hunended : r.ended = false := hearlier
    obtain ⟨hreceiver, hhalted⟩ := Receiver.coherent_of_feed h.receiver hrunning hfirst
    have hpos : 1 ≤ receiver.remaining := hreceiver.remaining_pos
    -- one byte is one pass
    have hpass : s.reception (bs ++ [b])
        = Receiver.advance .stream handle (receiver.absorb [b]) r := by
      refine hreception.trans ?_
      show Receiver.feed .stream handle [b] (receiver, r) = _
      rw [Receiver.feed_of_running hhalted, Receiver.consume_eq (List.cons_ne_nil b []),
        List.take_of_length_le (l := [b]) hpos, List.drop_of_length_le (l := [b]) hpos]
      cases Receiver.advance .stream handle (receiver.absorb [b]) r with
      | ok _ left => exact Receiver.consume_nil _ _
      | error e left => rfl
    rw [hpass] at hends
    -- and this pass hands over the command that ends the session
    rcases Receiver.advance_delivers .stream handle (receiver.absorb [b]) r with
      hsame | ⟨r', received, hdelivers⟩
    · rw [hsame, hunended] at hends
      exact absurd hends Bool.false_ne_true
    · rw [hdelivers] at hpass hends
      rw [Receiver.stateOf_deliver] at hends
      cases hhandle : handle received r with
      | error e ended =>
        rw [hhandle] at hends
        have hfalse : ended.ended = false := ended_of_handle_error hunended hhandle
        exact absurd (hfalse.symm.trans hends) Bool.false_ne_true
      | ok _ ended =>
        rw [hhandle] at hends
        have hreset : ended.ended = true := hends
        have hok : s.reception (bs ++ [b]) = .ok () (r'.complete, ended) := by
          rw [hpass, Receiver.deliver, hhandle]
        obtain ⟨-, hhalted'⟩ := Receiver.coherent_of_feed h.receiver hrunning hok
        have hrecovery := (h.receive (bs ++ [b])).recovery_eq
        rw [stateOf_receive, hok, stateOf, receiver_settle, if_pos hreset] at hrecovery
        exact ⟨r'.complete, ended, hreset, hhalted', hrecovery, hok⟩

/-! ### Behind the end -/

/-- **What follows the end in the same chunk** is received and not carried out: messages are counted
as decoded, and a byte that is no tag is dropped by a receiver that resynchronises, and stops one
that aborts. -/
theorem receive_endedBy (h : s.Coherent settings) (hrunning : s.receiver.halted = false)
    {bs : Bytes} {b : UInt8} (hended : s.EndedBy bs b) (seen : Bytes) :
    let base := receive (bs ++ [b]) s
    let result := receive (bs ++ [b] ++ seen) s
    let segments := (segmentation .incoming seen).segments
    errorOf base = none ∧ (stateOf result).effects = (stateOf base).effects ∧
    (stateOf result).receiver.halted = true ∧
    (settings.recovery = .resync →
      errorOf result = none ∧
      (stateOf result).receiver.decoded
        = (stateOf base).receiver.decoded + (messagesIn .incoming segments).length ∧
      (stateOf result).receiver.dropped = (stateOf base).receiver.dropped + straysIn segments) ∧
    (settings.recovery = .abort →
      errorOf result = (firstStray segments).map (fun b => .stream (.unknownTag b)) ∧
      (stateOf result).receiver.decoded
        = (stateOf base).receiver.decoded + (messagesIn .incoming (beforeStray segments)).length ∧
      (stateOf result).receiver.dropped = (stateOf base).receiver.dropped) := by
  intro base result segments
  obtain ⟨r, ended, hreset, hhalted, hrecovery, hreception⟩ := hended.reception_eq h hrunning
  let handle : Handler .incoming SessionError (Reception B) := Reception.handle s.settings.board
  have hidle : handle.Idle ended := idle_of_ended s.settings.board hreset
  have hrunning' : r.restart.halted = false := hhalted
  have hbase : base = .ok () (s.settle r.restart ended) := by
    rw [show base = receive (bs ++ [b]) s from rfl, receive_eq, hreception]
    rfl
  have hresult : result = mapState (fun left => s.settle left.1 left.2)
      (Receiver.consume .stream handle seen r.restart ended) := by
    rw [show result = receive (bs ++ [b] ++ seen) s from rfl, receive_eq,
      reception_append h hrunning, hreception]
    exact congrArg (mapState _) (Receiver.feed_of_running hrunning' seen ended)
  obtain ⟨herror, hstate, hcounted, hlost⟩ := settle_behind_end hreset s r.restart seen
  obtain ⟨hdecoded, hdropped⟩ := counts_settle s r.restart ended
  rw [← hresult] at herror hstate hcounted hlost
  rw [hbase, herror, hcounted, hlost, hstate, stateOf, hdecoded, hdropped]
  refine ⟨rfl, effects_settle_of_ended hreset s _ _, ?_, fun hresync => ?_, fun habort => ?_⟩
  · rw [receiver_settle, if_pos hreset]
    rfl
  · exact Receiver.consume_idle_of_resync hidle .stream (hrecovery.trans hresync) seen
  · exact Receiver.consume_idle_of_abort hidle .stream (hrecovery.trans habort) seen

/-- A run that has come to a result, and goes on with pieces that are refused. -/
def refusing (pieces : List Bytes) (result : EStateM.Result SessionError (Session B) Unit) :
    EStateM.Result SessionError (Session B) Unit :=
  match result with
  | .ok () s => if pieces = [] then .ok () s else .error (.stream .halted) s
  | .error e s => .error e s

omit [Board B] in
/-- What is refused changes nothing. -/
@[simp] theorem stateOf_refusing (pieces : List Bytes)
    (result : EStateM.Result SessionError (Session B) Unit) :
    stateOf (refusing pieces result) = stateOf result := by
  cases result with
  | error e s => rfl
  | ok _ s =>
    simp only [refusing]
    split <;> rfl

omit [Board B] in
/-- A refusal is an error unless there was one before. -/
theorem errorOf_refusing (pieces : List Bytes)
    (result : EStateM.Result SessionError (Session B) Unit) :
    errorOf (refusing pieces result)
      = (errorOf result).or (if pieces = [] then none else some (.stream .halted)) := by
  cases result with
  | error e s => rfl
  | ok _ s =>
    simp only [refusing]
    split <;> rfl

/-- A halted session refuses whatever comes. -/
theorem receiveAll_of_halted (hhalted : s.receiver.halted = true) (pieces : List Bytes) :
    receiveAll pieces s = refusing pieces (.ok () s) := by
  cases pieces with
  | nil => rfl
  | cons piece pieces =>
    rw [receiveAll_cons, EStateM.bind, receive_eq_of_halted hhalted]
    rfl

/-- **In pieces a session ends as with the piece in which it ends**, but that further pieces are
refused. -/
theorem receiveAll_endedBy (h : s.Coherent settings) (hrunning : s.receiver.halted = false)
    {bs last seen : Bytes} {b : UInt8} {before after : List Bytes} (hended : s.EndedBy bs b)
    (hbefore : before.flatten ++ last = bs ++ [b]) (hlast : last ≠ []) :
    receiveAll (before ++ (last ++ seen) :: after) s
      = refusing after (receive (bs ++ [b] ++ seen) s) := by
  have hstart : before.flatten <+: bs := by
    rcases List.eq_nil_or_concat last with hnil | ⟨front, b', rfl⟩
    · exact absurd hnil hlast
    · rw [List.concat_eq_append, ← List.append_assoc] at hbefore
      obtain ⟨hbs, -⟩ := List.append_inj' hbefore rfl
      exact ⟨front, hbs⟩
  have hearlier : s.ends before.flatten = false := hended.of_prefix h hrunning hstart
  have hbind := receive_bind h hrunning hearlier (last ++ seen)
  rw [← List.append_assoc, hbefore] at hbind
  obtain ⟨-, -, hhalted, -, -⟩ := receive_endedBy h hrunning hended seen
  rw [receiveAll_append h hrunning hearlier, ← hbind, EStateM.bind, EStateM.bind]
  rw [← hbind, EStateM.bind] at hhalted
  cases hfirst : receive before.flatten s with
  | error e s' => rfl
  | ok _ s' =>
    rw [hfirst] at hhalted
    simp only [receiveAll_cons, EStateM.bind]
    cases hpiece : receive (last ++ seen) s' with
    | error e s'' => rfl
    | ok _ s'' =>
      simp only [hpiece] at hhalted
      exact receiveAll_of_halted hhalted after

end Session
end PinBridge
