/-
PinBridge/Proofs/Receiver/Stream.lean

A receiver cuts a whole stream as the rules of `Segmented` say.

The induction is on the rules: one case for each kind of segment and of tail,
each of them one lemma on what the receiver does there.  Between two segments
the receiver is as it was in the beginning but for its counters and for what
earlier messages left in the buffer, which is written over before it is read.

Main statement: `feed_segmentation`.
-/
import PinBridge.Proofs.Receiver.Cut

namespace PinBridge
namespace Receiver

variable {d : Direction} {ε σ : Type} {ofStream : StreamError → ε} {handle : Handler d ε σ}

/-! ### Tallies -/

/-- What a receiver has counted, what it holds, and whether it is halted. -/
structure Tally where
  decoded : Nat
  dropped : Nat
  held : Bytes
  halted : Bool
  deriving DecidableEq, Repr

def tally (r : Receiver) : Tally := ⟨r.decoded, r.dropped, r.held, r.halted⟩

/-- A result with the tally of the receiver in the receiver's place. -/
def tallied : EStateM.Result ε (Receiver × σ) Unit → EStateM.Result ε (Tally × σ) Unit
  | .ok () (r, s) => .ok () (r.tally, s)
  | .error e (r, s) => .error e (r.tally, s)

/-- A receiver in the middle of a block holds its tag and what there is of the block. -/
theorem held_inBlock {r : Receiver} {kind : Kind} {taken : Bytes}
    (h : taken.length ≤ kind.blockLength d) :
    (r.inBlock d kind taken).held = kind.tag :: taken := by
  have hlen : (kind.tag :: taken).length = 1 + taken.length := Nat.add_comm taken.length 1
  show (r.buffer.write 0 (kind.tag :: taken)).slice 0 (1 + taken.length) = kind.tag :: taken
  rw [← hlen, Buffer.slice_write (length_inBlock_le h) (Nat.le_refl _), List.take_length]
  rfl

/-- A receiver in the middle of a trailer holds everything before it, too. -/
theorem held_inTrailer {r : Receiver} {kind : Kind} {block taken : Bytes}
    (hblock : block.length = kind.blockLength d)
    (h : taken.length ≤ d.trailerLength kind block) :
    (r.inTrailer d kind block taken).held = kind.tag :: block ++ taken := by
  show (r.buffer.write 0 (kind.tag :: block ++ taken)).slice 0 (1 + block.length + taken.length)
    = kind.tag :: block ++ taken
  rw [← length_message, Buffer.slice_write (length_inTrailer_le hblock h) (Nat.le_refl _),
    List.take_length]
  rfl

/-! ### Going on after failures -/

theorem fail_of_resync {r : Receiver} (hr : r.recovery = .resync) (e : ε) (s : σ) :
    r.fail e s = .ok () (r.skip.restart, s) := by
  unfold fail
  rw [hr]
  rfl

/-- A receiver that resynchronises goes on after a message, refused or not. -/
theorem deliver_of_resync (handle : Handler d ε σ) {r : Receiver} (hr : r.recovery = .resync)
    (received : Received d) (s : σ) : ∃ r' : Receiver,
      r.deliver handle received s = .ok () (r'.restart, handle.next received s) ∧
      r'.recovery = .resync ∧ r'.decoded = r.decoded + 1 ∧
      r'.dropped = r.dropped + (handle.refuses received s).toNat ∧ r'.halted = r.halted := by
  have hcomplete : r.complete.recovery = .resync := hr
  unfold deliver Handler.next Handler.refuses
  cases handle received s with
  | ok _ s' => exact ⟨r.complete, rfl, hr, rfl, rfl, rfl⟩
  | error e s' => exact ⟨r.complete.skip, fail_of_resync hcomplete e s', hr, rfl, rfl, rfl⟩

/-- A receiver that resynchronises sees every segment, whatever is refused. -/
theorem consume_of_resync (ofStream : StreamError → ε) (handle : Handler d ε σ)
    {bs tail : Bytes} {segments : List Segment} (h : Segmented d bs segments tail) {r : Receiver}
    (hr : r.recovery = .resync) (s : σ) :
    tallied (consume ofStream handle bs r.restart s)
      = .ok () (⟨r.decoded + (messagesIn d segments).length,
          r.dropped + (straysIn segments + handle.refusals (messagesIn d segments) s),
          tail, r.halted⟩, handle.after (messagesIn d segments) s) := by
  induction h generalizing r s with
  | nothing =>
    rw [consume_nil]
    rfl
  | @stray b rest tail segments hb h ih =>
    -- the receiver skips the byte and stands between two messages again
    have hsame : (r.restart.absorb [b]).recovery = .resync := hr
    have hskip : (r.restart.absorb [b]).skip.recovery = .resync := hr
    have hcount : r.dropped + 1 + (straysIn segments + handle.refusals (messagesIn d segments) s)
        = r.dropped + (straysIn segments + 1 + handle.refusals (messagesIn d segments) s) := by
      omega
    rw [consume_stray hb, fail_of_resync hsame, andThen_ok, ih hskip, messagesIn_stray,
      straysIn_stray, ← hcount]
    rfl
  | @message kind block trailer rest tail segments hblock htrailer h ih =>
    -- the message is counted, and counted as dropped, too, if it is refused
    let received : Received d :=
      ⟨d.parse kind block trailer, (Segment.message kind block trailer).bytes⟩
    have hsame : (r.restart.inTrailer d kind block trailer).recovery = .resync := hr
    obtain ⟨r', hdeliver, hr', hdecoded, hdropped, hhalted⟩ :=
      deliver_of_resync handle hsame received s
    have hcount : r'.decoded + (messagesIn d segments).length
        = r.decoded + (received :: messagesIn d segments).length := by
      rw [hdecoded, Nat.add_assoc, Nat.add_comm 1]
      rfl
    have hlost : r'.dropped
          + (straysIn segments + handle.refusals (messagesIn d segments) (handle.next received s))
        = r.dropped
          + (straysIn segments + handle.refusals (received :: messagesIn d segments) s) := by
      rw [hdropped, Nat.add_assoc, Nat.add_left_comm _ (straysIn segments)]
      rfl
    rw [consume_message hblock htrailer, hdeliver, andThen_ok, ih hr', hcount, hlost, hhalted,
      messagesIn_message, straysIn_message]
    rfl
  | shortBlock hshort =>
    rw [consume_inBlock hshort, tallied, tally, held_inBlock (Nat.le_of_lt hshort)]
    rfl
  | shortTrailer hblock hshort =>
    rw [consume_inTrailer hblock hshort, tallied, tally,
      held_inTrailer hblock (Nat.le_of_lt hshort)]
    rfl

/-! ### Stopping at the first failure -/

theorem fail_of_abort {r : Receiver} (hr : r.recovery = .abort) (e : ε) (s : σ) :
    r.fail e s = .error e (r.halt, s) := by
  unfold fail
  rw [hr]

/-- A receiver that aborts stops at the first segment that fails. -/
theorem consume_of_abort (ofStream : StreamError → ε) (handle : Handler d ε σ)
    {bs tail : Bytes} {segments : List Segment} (h : Segmented d bs segments tail) {r : Receiver}
    (hr : r.recovery = .abort) (s : σ) :
    tallied (consume ofStream handle bs r.restart s) =
      match segments.forM (Segment.play ofStream handle) s with
      | .ok () s' => .ok () (⟨r.decoded + (messagesIn d segments).length, r.dropped, tail,
          r.halted⟩, s')
      | .error e s' => .error e (⟨r.decoded
          + (messagesIn d (handle.untilFailure ofStream segments s)).length, r.dropped, [],
          true⟩, s') := by
  induction h generalizing r s with
  | nothing =>
    rw [consume_nil]
    rfl
  | @stray b rest tail segments hb h ih =>
    have hsame : (r.restart.absorb [b]).recovery = .abort := hr
    rw [consume_stray hb, fail_of_abort hsame]
    rfl
  | @message kind block trailer rest tail segments hblock htrailer h ih =>
    let received : Received d :=
      ⟨d.parse kind block trailer, (Segment.message kind block trailer).bytes⟩
    let segment : Segment := .message kind block trailer
    have hforM : (segment :: segments).forM (Segment.play ofStream handle) s
        = EStateM.bind (handle received) (fun _ => segments.forM (Segment.play ofStream handle))
            s := rfl
    rw [consume_message hblock htrailer, hforM, EStateM.bind, Handler.untilFailure, Segment.play,
      deliver]
    cases hplay : handle received s with
    | ok _ s' =>
      -- the rest is played from where the handler is now
      have hsame : (r.restart.inTrailer d kind block trailer).complete.recovery = .abort := hr
      show tallied (consume ofStream handle rest
        (r.restart.inTrailer d kind block trailer).complete.restart s') = _
      have hcount : ∀ segments : List Segment,
          (r.restart.inTrailer d kind block trailer).complete.decoded
              + (messagesIn d segments).length
            = r.decoded + (messagesIn d (segment :: segments)).length := by
        intro segments
        rw [messagesIn_message, List.length_cons, Nat.add_comm _ 1, ← Nat.add_assoc]
        rfl
      rw [ih hsame, hcount, hcount]
      rfl
    | error e s' =>
      -- the rest is not looked at
      have hsame : (r.restart.inTrailer d kind block trailer).complete.recovery = .abort := hr
      simp only [fail_of_abort hsame]
      rfl
  | shortBlock hshort =>
    rw [consume_inBlock hshort, tallied, tally, held_inBlock (Nat.le_of_lt hshort)]
    rfl
  | shortTrailer hblock hshort =>
    rw [consume_inTrailer hblock hshort, tallied, tally,
      held_inTrailer hblock (Nat.le_of_lt hshort)]
    rfl

end Receiver

/-! ### Keeping a record -/

namespace Handler

variable {d : Direction} {ε σ : Type} (ofStream : StreamError → ε) (handle : Handler d ε σ)

/-- Refused or not, a message is recorded. -/
theorem recorded_apply (received : Received d) (s : σ) (record : List (Received d)) :
    handle.recorded received (s, record) =
      match handle received s with
      | .ok () s' => .ok () (s', record ++ [received])
      | .error e s' => .error e (s', record ++ [received]) := rfl

theorem next_recorded (received : Received d) (s : σ) (record : List (Received d)) :
    handle.recorded.next received (s, record) = (handle.next received s, record ++ [received]) := by
  rw [next, next, recorded_apply]
  cases handle received s <;> rfl

theorem refuses_recorded (received : Received d) (s : σ) (record : List (Received d)) :
    handle.recorded.refuses received (s, record) = handle.refuses received s := by
  rw [refuses, refuses, recorded_apply]
  cases handle received s <;> rfl

theorem after_recorded (messages : List (Received d)) (s : σ) (record : List (Received d)) :
    handle.recorded.after messages (s, record) = (handle.after messages s, record ++ messages) := by
  induction messages generalizing s record with
  | nil => rw [List.append_nil, after, after]
  | cons received messages ih =>
    rw [after, next_recorded, ih, List.append_assoc]
    rfl

theorem refusals_recorded (messages : List (Received d)) (s : σ) (record : List (Received d)) :
    handle.recorded.refusals messages (s, record) = handle.refusals messages s := by
  induction messages generalizing s record with
  | nil => rfl
  | cons received messages ih =>
    rw [refusals, refuses_recorded, next_recorded, ih]
    rfl

/-- A segment adds its message to the record, if it is one. -/
theorem play_recorded (segment : Segment) (s : σ) (record : List (Received d)) :
    segment.play ofStream handle.recorded (s, record) =
      match segment.play ofStream handle s with
      | .ok () s' => .ok () (s', record ++ messagesIn d [segment])
      | .error e s' => .error e (s', record ++ messagesIn d [segment]) := by
  cases segment with
  | stray b =>
    show EStateM.Result.error _ (s, record) = .error _ (s, record ++ [])
    rw [List.append_nil]
  | message kind block trailer => exact recorded_apply handle _ s record

theorem untilFailure_recorded (segments : List Segment) (s : σ) (record : List (Received d)) :
    handle.recorded.untilFailure ofStream segments (s, record)
      = handle.untilFailure ofStream segments s := by
  induction segments generalizing s record with
  | nil => rfl
  | cons segment segments ih =>
    rw [untilFailure, untilFailure, play_recorded]
    cases segment.play ofStream handle s with
    | ok _ s' => exact congrArg (segment :: ·) (ih s' _)
    | error e s' => rfl

/-- Playing segments, the record grows by their messages up to the first failure. -/
theorem forM_play_recorded (segments : List Segment) (s : σ) (record : List (Received d)) :
    segments.forM (Segment.play ofStream handle.recorded) (s, record) =
      match segments.forM (Segment.play ofStream handle) s with
      | .ok () s' => .ok () (s', record ++ messagesIn d segments)
      | .error e s' =>
        .error e (s', record ++ messagesIn d (handle.untilFailure ofStream segments s)) := by
  induction segments generalizing s record with
  | nil =>
    show EStateM.Result.ok () (s, record) = .ok () (s, record ++ [])
    rw [List.append_nil]
  | cons segment segments ih =>
    have hcons : ∀ rest : List Segment,
        messagesIn d (segment :: rest) = messagesIn d [segment] ++ messagesIn d rest := by
      intro rest
      exact List.filterMap_append (l := [segment])
    show EStateM.bind (segment.play ofStream handle.recorded)
        (fun _ => segments.forM (Segment.play ofStream handle.recorded)) (s, record)
      = match EStateM.bind (segment.play ofStream handle)
          (fun _ => segments.forM (Segment.play ofStream handle)) s with
        | .ok () s' => .ok () (s', record ++ messagesIn d (segment :: segments))
        | .error e s' => .error e
            (s', record ++ messagesIn d (handle.untilFailure ofStream (segment :: segments) s))
    rw [EStateM.bind, EStateM.bind, play_recorded, untilFailure]
    cases segment.play ofStream handle s with
    | ok _ s' =>
      simp only [ih, List.append_assoc, ← hcons]
    | error e s' => rfl

end Handler

namespace Receiver

/-! ### The whole stream -/

/-- **A fresh receiver cuts a stream as the rules say, and loses nothing.**  Resynchronising, it
hands over every message, whichever of them are refused, counts the strays and the refusals as
dropped, and holds the tail.  Aborting, it does the same up to the first failure, and stops there
with that error. -/
theorem feed_segmentation (d : Direction) {ε σ : Type} (ofStream : StreamError → ε)
    (handle : Handler d ε σ) (bs : Bytes) (s : σ) :
    let parts := segmentation d bs
    let messages := messagesIn d parts.segments
    let seen := messagesIn d (handle.untilFailure ofStream parts.segments s)
    parts.segments.flatMap Segment.bytes ++ parts.tail = bs ∧
    tallied (feed ofStream handle.recorded bs (.new .resync, s, []))
      = .ok () (⟨messages.length, straysIn parts.segments + handle.refusals messages s, parts.tail,
          false⟩, handle.after messages s, messages) ∧
    tallied (feed ofStream handle.recorded bs (.new .abort, s, []))
      = match parts.segments.forM (Segment.play ofStream handle) s with
        | .ok () s' => .ok () (⟨messages.length, 0, parts.tail, false⟩, s', messages)
        | .error e s' => .error e (⟨seen.length, 0, [], true⟩, s', seen) := by
  intro parts messages seen
  have hparts : Segmented d bs parts.segments parts.tail := segmented d bs
  have hdecoded : ∀ (recovery : Recovery) (n : Nat), (new recovery).decoded + n = n :=
    fun _ n => Nat.zero_add n
  have hdropped : ∀ (recovery : Recovery) (n : Nat), (new recovery).dropped + n = n :=
    fun _ n => Nat.zero_add n
  refine ⟨hparts.flatten, ?_, ?_⟩
  · have hresync := consume_of_resync ofStream handle.recorded hparts
      (r := .new .resync) rfl (s, [])
    rw [Handler.refusals_recorded, Handler.after_recorded, List.nil_append, hdecoded,
      hdropped] at hresync
    exact hresync
  · have habort := consume_of_abort ofStream handle.recorded hparts
      (r := .new .abort) rfl (s, [])
    rw [Handler.untilFailure_recorded, Handler.forM_play_recorded, hdecoded, hdecoded] at habort
    rw [feed_of_running rfl]
    refine Eq.trans habort ?_
    cases parts.segments.forM (Segment.play ofStream handle) s with
    | ok _ s' => rfl
    | error e s' => rfl

end Receiver
end PinBridge
