/-
PinBridge/Proofs/Session/Drain.lean

Sending what is queued, before a channel that takes all it is given.

Such a channel is always ready, so every tick confirms the span of the tick
before and writes the next one.  The next span is never empty while there is
something left, because the first slot of a ring lies within it (`Ring`).  So
every tick but the first takes at least one byte out of the queue, and a step
for each byte and one more are enough (`Session.ticksLeft`).

Main statement: `sendQueued_willing`, all that has not been written before is
written, in order, and nothing stays in the queue.
-/
import PinBridge.Tool.Simulation
import PinBridge.Proofs.Channel.Writer
import PinBridge.Proofs.Queue.Content
import PinBridge.Proofs.Session.Events

namespace PinBridge

/-! ### A channel that takes everything -/

namespace WriterChannel

/-- Nothing in the scripts of this channel is in the way of what it is given. -/
structure Willing (c : WriterChannel) : Prop where
  isOpen : c.closed = false
  writes : c.writer.writes = []
  flushes : c.writer.flushes = []

variable {c : WriterChannel}

/-- A channel over a writer with no scripts. -/
theorem willing_new : Willing (.new (.new [] [])) := ⟨rfl, rfl, rfl⟩

theorem Willing.ready (h : Willing c) : Channel.ready c = true := by
  show (!c.closed) = true
  rw [h.isOpen]
  rfl

/-- Such a channel takes any span, and goes on to take the next. -/
theorem Willing.write (h : Willing c) {span : Bytes} (hspan : span ≠ []) :
    ∃ c', Channel.write span c = .ok () c' ∧ Willing c' ∧ c'.taken = c.taken ++ span := by
  have hrun : Handover.run c.writer.writes span = ⟨.emptied, [], span, [span]⟩ := by
    rw [h.writes]
    cases span with
    | nil => exact absurd rfl hspan
    | cons b span => rfl
  have hwrite : ∃ c', c.write span = .ok () c' ∧ Willing c' := by
    unfold WriterChannel.write
    rw [h.isOpen]
    simp only [hrun, flush, h.flushes, Flushing.run, Bool.false_eq_true, if_false]
    exact ⟨_, rfl, rfl, rfl, rfl⟩
  obtain ⟨c', hok, hwilling⟩ := hwrite
  exact ⟨c', hok, hwilling, taken_of_write_ok hok⟩

end WriterChannel

/-! ### The ring -/

theorem Line.ring_confirm {C : Type} {l : Line C} (h : l.queue.Ring) : l.confirm.queue.Ring := by
  unfold Line.confirm
  split
  · exact h.pull _
  · exact h

/-! ### Sending -/

namespace Session

variable {B : Type}

/-- The bytes of the queue that have not been written. -/
def unwritten (s : Session B) : Bytes := s.queue.content.drop s.transmitter.inFlight

/-- How many ticks it takes at most until the queue is empty.  A span that is on its way leaves the
queue at the first of them. -/
def ticksLeft (s : Session B) : Nat :=
  if s.queue.content = [] then 0
  else s.queue.content.length + if s.transmitter.inFlight = 0 then 1 else 0

/-- What a tick before a willing channel makes of a session and the channel. -/
structure Sent (s : Session B) (channel : WriterChannel) (s' : Session B)
    (channel' : WriterChannel) : Prop where
  willing : channel'.Willing
  ring : s'.queue.Ring
  receiver : s'.receiver = s.receiver
  /-- What was on its way has left the queue. -/
  content : s'.queue.content = s.unwritten
  /-- Nothing is lost, repeated or put in another order. -/
  taken : channel'.taken ++ s'.unwritten = channel.taken ++ s.unwritten
  inFlight : s.unwritten ≠ [] → s'.transmitter.inFlight ≠ 0

/-- Every tick brings the end of the queue nearer. -/
theorem Sent.ticksLeft_lt {s s' : Session B} {channel channel' : WriterChannel}
    (h : Sent s channel s' channel') (hcontent : s.queue.content ≠ []) :
    s'.ticksLeft < s.ticksLeft := by
  have hpos : 0 < s.queue.content.length := List.length_pos_iff.2 hcontent
  have hlength : s'.queue.content.length
      = s.queue.content.length - s.transmitter.inFlight := by
    rw [h.content, unwritten, List.length_drop]
  unfold ticksLeft
  rw [if_neg hcontent]
  by_cases hempty : s'.queue.content = []
  · rw [if_pos hempty]
    omega
  · -- something is on its way, so that the next tick takes it out of the queue
    rw [if_neg hempty, if_neg (h.inFlight (h.content ▸ hempty))]
    split <;> omega

variable [Board B]

theorem sendQueued_zero {C : Type} [Channel C] (s : Session B) (channel : C) :
    sendQueued 0 (s, channel) = .ok s.queue.isEmpty (s, channel) := rfl

/-- A step looks whether anything is queued, ticks, and goes on unless the channel is stuck. -/
theorem sendQueued_succ {C : Type} [Channel C] (steps : Nat) (s : Session B) (channel : C) :
    sendQueued (steps + 1) (s, channel) =
      if s.queue.isEmpty then .ok true (s, channel)
      else
        match tick (s, channel) with
        | .ok n (s, channel) =>
          if n = 0 && !Channel.ready channel then .ok true (s, channel)
          else sendQueued steps (s, channel)
        | .error e left => .error e left := by
  have hget : ∀ left : Session B × C,
      (MonadStateOf.get : EStateM SessionError (Session B × C) _) left = .ok left left :=
    fun _ => rfl
  simp only [sendQueued, bind, EStateM.bind, get, getThe, hget]
  split
  · rfl
  · simp only [EStateM.bind]
    cases tick (s, channel) with
    | error e left => rfl
    | ok n left =>
      obtain ⟨s', channel'⟩ := left
      simp only [hget]
      split <;> rfl

theorem sendQueued_of_empty {C : Type} [Channel C] {s : Session B}
    (hempty : s.queue.content = []) (steps : Nat) (channel : C) :
    sendQueued steps (s, channel) = .ok true (s, channel) := by
  have hisEmpty : s.queue.isEmpty = true := List.isEmpty_iff.2 hempty
  cases steps with
  | zero => rw [sendQueued_zero, hisEmpty]
  | succ steps => rw [sendQueued_succ, if_pos hisEmpty]

/-- While something is queued and the channel stays ready, the other steps follow a tick. -/
theorem sendQueued_of_tick {C : Type} [Channel C] {s s' : Session B} {channel channel' : C}
    {n : Nat} (hcontent : s.queue.content ≠ []) (htick : tick (s, channel) = .ok n (s', channel'))
    (hready : Channel.ready channel' = true) (steps : Nat) :
    sendQueued (steps + 1) (s, channel) = sendQueued steps (s', channel') := by
  have hisEmpty : ¬s.queue.isEmpty = true := fun h => hcontent (List.isEmpty_iff.1 h)
  rw [sendQueued_succ, if_neg hisEmpty, htick]
  simp only [hready, Bool.not_true, Bool.and_false, Bool.false_eq_true, if_false]

/-- A tick before a willing channel writes the head of what has not been written. -/
theorem tick_willing {s : Session B} {channel : WriterChannel} (hwilling : channel.Willing)
    (hring : s.queue.Ring) :
    ∃ (n : Nat) (s' : Session B) (channel' : WriterChannel),
      tick (s, channel) = .ok n (s', channel') ∧ Sent s channel s' channel' := by
  have hticked := Line.ticked (s.line channel)
  have hchannel : (s.line channel).confirm.channel = channel := Line.confirm_channel
  have hconfirmed : (s.line channel).confirm.queue.content = s.unwritten := Line.confirm_content
  have hringConfirmed : (s.line channel).confirm.queue.Ring := Line.ring_confirm hring
  rw [tick_eq]
  generalize Line.tick (s.line channel) = result at hticked ⊢
  cases hticked with
  | waiting hready =>
    rw [show Channel.ready (s.line channel).channel = true from hwilling.ready] at hready
    cases hready
  | idle hready hspan =>
    -- there is no head, so nothing is left to be written
    have hempty : s.unwritten = [] := by
      rw [← hconfirmed]
      exact Decidable.byContradiction fun hne => hringConfirmed.head_ne_nil hne hspan
    have hrest : (s.afterTick (s.line channel).confirm).unwritten = [] := by
      show (s.line channel).confirm.queue.content.drop _ = []
      rw [hconfirmed, hempty, List.drop_nil]
    refine ⟨0, s.afterTick (s.line channel).confirm, _, rfl, ?_, hringConfirmed, rfl, hconfirmed,
      ?_, absurd hempty⟩
    · rw [hchannel]
      exact hwilling
    · rw [hchannel, hrest, hempty]
  | @written channel' hready hspan hwrite =>
    obtain ⟨c', hok, hwilling', htaken⟩ := hwilling.write hspan
    have hsame : channel' = c' := by
      have hboth := hwrite.symm.trans hok
      injection hboth
    subst hsame
    have hhead := Queue.head_prefix (s.line channel).confirm.queue
    rw [hconfirmed, List.prefix_iff_eq_append] at hhead
    -- the head is on its way now, and what is behind it is what is still to be written
    refine ⟨_, _, _, rfl, hwilling', hringConfirmed, rfl, hconfirmed, ?_, fun _ => ?_⟩
    · show channel'.taken
          ++ (s.line channel).confirm.queue.content.drop (s.line channel).confirm.queue.head.length
        = channel.taken ++ s.unwritten
      rw [htaken, hconfirmed, List.append_assoc, hhead]
    · exact fun hzero => hspan (List.length_eq_zero_iff.1 hzero)
  | @failed e channel' hready hspan hwrite =>
    obtain ⟨c', hok, -, -⟩ := hwilling.write hspan
    have hboth := hwrite.symm.trans hok
    cases hboth

/-- **What is queued is sent**: before a willing channel, with a step for every tick that it can
take, everything that had not been written is written, and the queue is empty afterwards. -/
theorem sendQueued_willing {s : Session B} {channel : WriterChannel} (hwilling : channel.Willing)
    (hring : s.queue.Ring) {steps : Nat} (hsteps : s.ticksLeft ≤ steps) :
    ∃ (s' : Session B) (channel' : WriterChannel),
      sendQueued steps (s, channel) = .ok true (s', channel') ∧ s'.queue.content = [] ∧
      s'.receiver = s.receiver ∧ channel'.taken = channel.taken ++ s.unwritten := by
  induction steps generalizing s channel with
  | zero =>
    -- no tick is left, so there is nothing to be sent
    have hempty : s.queue.content = [] := by
      unfold ticksLeft at hsteps
      split at hsteps
      · assumption
      next hcontent =>
        have hpos := List.length_pos_iff.2 hcontent
        omega
    refine ⟨s, channel, sendQueued_of_empty hempty 0 channel, hempty, rfl, ?_⟩
    rw [unwritten, hempty, List.drop_nil, List.append_nil]
  | succ steps ih =>
    by_cases hcontent : s.queue.content = []
    · refine ⟨s, channel, sendQueued_of_empty hcontent _ channel, hcontent, rfl, ?_⟩
      rw [unwritten, hcontent, List.drop_nil, List.append_nil]
    · obtain ⟨n, s₁, channel₁, htick, hsent⟩ := tick_willing hwilling hring
      have hless : s₁.ticksLeft ≤ steps := by
        have hlt := hsent.ticksLeft_lt hcontent
        omega
      obtain ⟨s₂, channel₂, hrest, hempty, hreceiver, htaken⟩ := ih hsent.willing hsent.ring hless
      refine ⟨s₂, channel₂, ?_, hempty, hreceiver.trans hsent.receiver, htaken.trans hsent.taken⟩
      rw [sendQueued_of_tick hcontent htick hsent.willing.ready, hrest]

/-- Housekeeping is all that sending does to the board. -/
theorem board_sendQueued {P : B → Prop} {C : Type} [Channel C]
    (hkeeps : ∀ board, P board → P (Board.housekeeping board)) (steps : Nat) (s : Session B)
    (channel : C) (hs : P s.board) : P (stateOf (sendQueued steps (s, channel))).1.board := by
  induction steps generalizing s channel with
  | zero =>
    rw [sendQueued_zero]
    exact hs
  | succ steps ih =>
    have hticked : P (stateOf (tick (s, channel))).1.board := by
      rw [stateOf_tick]
      exact hkeeps s.board hs
    rw [sendQueued_succ]
    split
    · exact hs
    · cases htick : tick (s, channel) with
      | error e left =>
        rw [htick] at hticked
        exact hticked
      | ok n left =>
        obtain ⟨s', channel'⟩ := left
        rw [htick] at hticked
        simp only
        split
        · exact hticked
        · exact ih s' channel' hticked

end Session
end PinBridge
