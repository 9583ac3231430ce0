/-
PinBridge/Proofs/Receiver/Idle.lean

What a receiver counts when its handler has nothing left to do.

An idle handler takes every message and stays as it is.  Then only a byte that
is no tag can be in the way of the receiver, and the segments of what it is fed
say where it stops and what it has counted by then.

Main statements: `stateOf_feed_idle`, `consume_idle_of_resync` and
`consume_idle_of_abort`.
-/
import PinBridge.Proofs.Receiver.Stream
import PinBridge.Proofs.Receiver.Handled

namespace PinBridge

/-! ### Strays -/

/-- The byte that is no tag, if the segment is one. -/
def Segment.stray? : Segment → Option UInt8
  | .stray b => some b
  | .message .. => none

/-- The first byte among segments that is no tag. -/
def firstStray (segments : List Segment) : Option UInt8 := segments.findSome? Segment.stray?

/-- The segments before the first byte that is no tag. -/
def beforeStray (segments : List Segment) : List Segment :=
  segments.takeWhile fun segment => !segment.isStray

theorem beforeStray_of_firstStray {segments : List Segment} (h : firstStray segments = none) :
    beforeStray segments = segments := by
  induction segments with
  | nil => rfl
  | cons segment segments ih =>
    cases segment with
    | stray b => cases h
    | message kind block trailer => exact congrArg (_ :: ·) (ih h)

/-! ### Idle handlers -/

/-- In this state the handler takes whatever it is given, and stays in it. -/
def Handler.Idle {d : Direction} {ε σ : Type} (handle : Handler d ε σ) (s : σ) : Prop :=
  ∀ received : Received d, handle received s = .ok () s

namespace Handler.Idle

variable {d : Direction} {ε σ : Type} {handle : Handler d ε σ} {s : σ}

/-- Nothing is refused. -/
theorem refusals (h : handle.Idle s) (messages : List (Received d)) :
    handle.refusals messages s = 0 := by
  induction messages with
  | nil => rfl
  | cons received messages ih =>
    have hnext : handle.next received s = s := by rw [Handler.next, h received]
    have hrefuses : handle.refuses received s = false := by rw [Handler.refuses, h received]
    rw [Handler.refusals, hnext, hrefuses, ih]
    rfl

/-- Only a byte that is no tag stops the playing of segments. -/
theorem forM_play (h : handle.Idle s) (ofStream : StreamError → ε) (segments : List Segment) :
    segments.forM (Segment.play ofStream handle) s =
      match firstStray segments with
      | none => .ok () s
      | some b => .error (ofStream (.unknownTag b)) s := by
  induction segments with
  | nil => rfl
  | cons segment segments ih =>
    show EStateM.bind (segment.play ofStream handle)
      (fun _ => segments.forM (Segment.play ofStream handle)) s = _
    rw [EStateM.bind]
    cases segment with
    | stray b => rfl -- the rest is not played
    | message kind block trailer =>
      rw [Segment.play, h]
      exact ih

/-- The messages that are played are those before it. -/
theorem messagesIn_untilFailure (h : handle.Idle s) (ofStream : StreamError → ε)
    (segments : List Segment) :
    messagesIn d (handle.untilFailure ofStream segments s)
      = messagesIn d (beforeStray segments) := by
  induction segments with
  | nil => rfl
  | cons segment segments ih =>
    cases segment with
    | stray b => rfl
    | message kind block trailer =>
      rw [Handler.untilFailure, Segment.play, h]
      exact congrArg (_ :: ·) ih

end Handler.Idle

/-! ### Receiving without effect -/

namespace Receiver

variable {d : Direction} {ε σ : Type} {handle : Handler d ε σ} {s : σ} {r : Receiver}

theorem stateOf_advance_idle (hidle : handle.Idle s) (ofStream : StreamError → ε) (r : Receiver) :
    (stateOf (advance ofStream handle r s)).2 = s := by
  fun_induction advance ofStream handle r s with
  | case1 r hzero r' hturn ih => exact ih
  | case2 r hzero received hturn => rw [stateOf_deliver, hidle received, stateOf]
  | case3 r hzero tag hturn => exact stateOf_fail r _ s
  | case4 r hpos => rfl

theorem stateOf_consume_idle (hidle : handle.Idle s) (ofStream : StreamError → ε) (bs : Bytes)
    (r : Receiver) : (stateOf (consume ofStream handle bs r s)).2 = s := by
  fun_induction consume ofStream handle bs r s with
  | case1 bs r s hempty => rfl
  | case2 bs r s hbs r' s' hpass ih =>
    have hsame : s' = s := by
      have hnext := stateOf_advance_idle hidle ofStream (r.absorb (bs.take r.remaining))
      rw [hpass] at hnext
      exact hnext
    subst hsame
    exact ih hidle
  | case3 bs r s hbs e stopped hpass =>
    have hnext := stateOf_advance_idle hidle ofStream (r.absorb (bs.take r.remaining))
    rw [hpass] at hnext
    exact hnext

/-- An idle handler stays as it is. -/
theorem stateOf_feed_idle (hidle : handle.Idle s) (ofStream : StreamError → ε) (chunk : Bytes)
    (r : Receiver) : (stateOf (feed ofStream handle chunk (r, s))).2 = s := by
  cases hhalted : r.halted with
  | true => rw [feed_of_halted hhalted, stateOf]
  | false =>
    rw [feed_of_running hhalted]
    exact stateOf_consume_idle hidle ofStream chunk r

theorem errorOf_tallied (result : EStateM.Result ε (Receiver × σ) Unit) :
    errorOf (tallied result) = errorOf result := by
  cases result <;> rfl

theorem stateOf_tallied (result : EStateM.Result ε (Receiver × σ) Unit) :
    stateOf (tallied result) = Prod.map tally id (stateOf result) := by
  cases result <;> rfl

/-- A receiver that resynchronises counts all messages, and drops all strays. -/
theorem consume_idle_of_resync (hidle : handle.Idle s) (ofStream : StreamError → ε)
    (hr : r.recovery = .resync) (bs : Bytes) :
    let result := consume ofStream handle bs r.restart s
    let segments := (segmentation d bs).segments
    errorOf result = none ∧
      (stateOf result).1.decoded = r.decoded + (messagesIn d segments).length ∧
      (stateOf result).1.dropped = r.dropped + straysIn segments := by
  intro result segments
  -- the handler refuses nothing, so that strays are all that is dropped
  have htallied : tallied result = _ := consume_of_resync ofStream handle (segmented d bs) hr s
  rw [hidle.refusals, Nat.add_zero] at htallied
  have herror := congrArg errorOf htallied
  have hstate := congrArg (fun result => (stateOf result).1) htallied
  rw [errorOf_tallied] at herror
  simp only [stateOf_tallied] at hstate
  exact ⟨herror, congrArg Tally.decoded hstate, congrArg Tally.dropped hstate⟩

/-- A receiver that aborts counts the messages before the first stray, and stops there. -/
theorem consume_idle_of_abort (hidle : handle.Idle s) (ofStream : StreamError → ε)
    (hr : r.recovery = .abort) (bs : Bytes) :
    let result := consume ofStream handle bs r.restart s
    let segments := (segmentation d bs).segments
    errorOf result = (firstStray segments).map (fun b => ofStream (.unknownTag b)) ∧
      (stateOf result).1.decoded = r.decoded + (messagesIn d (beforeStray segments)).length ∧
      (stateOf result).1.dropped = r.dropped := by
  have htallied := consume_of_abort ofStream handle (segmented d bs) hr s
  rw [hidle.forM_play, hidle.messagesIn_untilFailure] at htallied
  have herror := congrArg errorOf htallied
  have hstate := congrArg (fun result => (stateOf result).1) htallied
  rw [errorOf_tallied] at herror
  simp only [stateOf_tallied] at hstate
  cases hstray : firstStray (segmentation d bs).segments with
  | none =>
    simp only [hstray] at herror hstate
    simp only [hstray, beforeStray_of_firstStray hstray]
    exact ⟨herror, congrArg Tally.decoded hstate, congrArg Tally.dropped hstate⟩
  | some b =>
    simp only [hstray] at herror hstate
    simp only [hstray]
    exact ⟨herror, congrArg Tally.decoded hstate, congrArg Tally.dropped hstate⟩

end Receiver
end PinBridge
