/-
PinBridge/Proofs/Session/Ticks.lean

How many ticks it takes to send what is queued.

Sending looks only at the queue: as long as anything is in it, the session
ticks, unless a tick fails, or hands over nothing to a channel that is not
ready.  `Drains` says this without a bound, and counts the ticks.

A tick before a channel that is not ready is the last one.  Before one that is
ready, what is on its way leaves the queue and one of the pieces that remain is
written (`Advanced`), so there is a tick for each piece and one more
(`ticksDue`).  There are at most two pieces, whatever the channel does.

Nothing is asked of the channel for this.  What it has taken is known if it
takes what it says it takes (`Channel.Takes`): together with what is still to be
written this stays the same from tick to tick.

Main statement: `sent_within_three_ticks`.
-/
import PinBridge.Channel.Recorder
import PinBridge.Proofs.Session.Drain
import PinBridge.Proofs.Session.InFlight
import PinBridge.Proofs.Session.Sharing

namespace PinBridge

/-- What a run with a bound answers if the bound was enough. -/
def enough {ε σ : Type} : EStateM.Result ε σ Unit → EStateM.Result ε σ Bool
  | .ok () s => .ok true s
  | .error e s => .error e s

/-- A span that is reported as written has been taken whole. -/
def Channel.Takes {C : Type} [Channel C] (taken : C → Bytes) : Prop :=
  ∀ {span : Bytes} {c c' : C}, Channel.write span c = .ok () c' → taken c' = taken c ++ span

theorem WriterChannel.takes : Channel.Takes WriterChannel.taken := taken_of_write_ok

theorem Recorder.takes : Channel.Takes Recorder.written := by
  intro span c c' h
  change Recorder.write span c = .ok () c' at h
  unfold Recorder.write at h
  split at h
  · cases h
  · split at h
    · cases h
    · cases h
      show (c.writes ++ [span]).flatten = c.writes.flatten ++ span
      rw [List.flatten_append, List.flatten_singleton]

namespace Session

variable {B C : Type} {settings : Settings} {s : Session B}

/-! ### The number of ticks -/

theorem content_arrived (s : Session B) : s.arrived.content = s.unwritten := by
  unfold arrived unwritten
  split
  · rfl
  · have hnone : s.transmitter.inFlight = 0 := by omega
    rw [hnone, List.drop_zero]

/-- How many ticks it takes at most until the queue is empty: one for each piece that is to be
written, and the one that finds the last of them arrived. -/
def ticksDue (s : Session B) : Nat :=
  if s.queue.content = [] then 0 else s.arrived.spans + 1

theorem ticksDue_le_three (s : Session B) : s.ticksDue ≤ 3 := by
  have htwo := s.arrived.spans_le_two
  unfold ticksDue
  split <;> omega

theorem ticksDue_le_length (h : s.queue.Sound) : s.ticksDue ≤ s.queue.length + 1 := by
  have hspans : s.arrived.spans ≤ s.arrived.content.length := (sound_arrived h).spans_le_length
  have hlength : s.arrived.content.length ≤ s.queue.content.length := by
    rw [content_arrived, unwritten, List.length_drop]
    exact Nat.sub_le _ _
  show s.ticksDue ≤ s.queue.content.length + 1
  unfold ticksDue
  split <;> omega

/-! ### Ticks that succeed -/

section Advanced

variable [Channel C]

/-- What a tick that succeeds makes of a session before a ready channel: what was on its way has
arrived, and the head of the rest is written, if there is one. -/
structure Advanced (p : Session B × C) (n : Nat) (p' : Session B × C) : Prop where
  queue : p'.1.queue = p.1.arrived
  inFlight : p'.1.transmitter.inFlight = p.1.arrived.head.length
  count : n = p.1.arrived.head.length
  written : p.1.arrived.head = [] ∧ p'.2 = p.2 ∨
    Channel.write p.1.arrived.head p.2 = .ok () p'.2

/-- What has been taken and what is still to be written stays the same. -/
theorem Advanced.conserved {p p' : Session B × C} {n : Nat} (h : Advanced p n p')
    {taken : C → Bytes} (htakes : Channel.Takes taken) :
    taken p'.2 ++ p'.1.unwritten = taken p.2 ++ p.1.unwritten := by
  have hhead := List.prefix_iff_eq_append.1 p.1.arrived.head_prefix
  have hleft : p'.1.unwritten = p.1.arrived.content.drop p.1.arrived.head.length := by
    rw [unwritten, h.queue, h.inFlight]
  rw [hleft, ← content_arrived p.1]
  rcases h.written with ⟨hnil, hsame⟩ | hwrite
  · rw [hsame, hnil, List.length_nil, List.drop_zero]
  · rw [htakes hwrite, List.append_assoc, hhead]

/-- Each tick leaves one less to be made. -/
theorem Advanced.ticksDue {p p' : Session B × C} {n : Nat} (h : Advanced p n p')
    (hsound : p.1.queue.Sound) (hqueued : p.1.queue.content ≠ []) :
    p'.1.ticksDue + 1 = p.1.ticksDue := by
  have hdue : p.1.ticksDue = p.1.arrived.spans + 1 := if_neg hqueued
  have harrived : p.1.arrived.Sound := sound_arrived hsound
  rw [hdue, Nat.add_right_cancel_iff]
  unfold Session.ticksDue
  rw [h.queue]
  split
  next hempty => exact (Queue.spans_of_nil hempty).symm
  next hleft =>
    -- the head of what is left is on its way, and is the next to arrive
    have hhead : p.1.arrived.head ≠ [] := (harrived.ring hleft).head_ne_nil hleft
    have hnext : p'.1.arrived = p.1.arrived.pull p.1.arrived.head.length := by
      have hpos : 0 < p'.1.transmitter.inFlight := by
        rw [h.inFlight]
        exact List.length_pos_iff.2 hhead
      rw [arrived, if_pos hpos, h.queue, h.inFlight]
    rw [hnext]
    exact harrived.spans_pull_head hleft

theorem Advanced.sound {p p' : Session B × C} {n : Nat} (h : Advanced p n p')
    (hsound : p.1.queue.Sound) : p'.1.queue.Sound := by
  rw [h.queue]
  exact sound_arrived hsound

end Advanced

/-! ### The loop -/

section Loop

variable [Board B] [Channel C]

/-- How sending ends, and after how many ticks. -/
inductive Drains : Nat → Session B × C → EStateM.Result SessionError (Session B × C) Unit → Prop
  /-- Nothing is queued any more. -/
  | emptied {p : Session B × C} (hempty : p.1.queue.content = []) : Drains 0 p (.ok () p)
  /-- The channel takes nothing for the time being. -/
  | stuck {p p' : Session B × C} (hqueued : p.1.queue.content ≠ []) (htick : tick p = .ok 0 p')
      (hready : Channel.ready p'.2 = false) : Drains 1 p (.ok () p')
  | failed {p p' : Session B × C} {e : SessionError} (hqueued : p.1.queue.content ≠ [])
      (htick : tick p = .error e p') : Drains 1 p (.error e p')
  | goesOn {p p' : Session B × C} {n ticks : Nat}
      {result : EStateM.Result SessionError (Session B × C) Unit}
      (hqueued : p.1.queue.content ≠ []) (htick : tick p = .ok n p')
      (hon : n = 0 → Channel.ready p'.2 = true) (hrest : Drains ticks p' result) :
      Drains (ticks + 1) p result

/-- **A bound that is not less than the number of ticks does not show.** -/
theorem Drains.sendQueued {ticks : Nat} {p : Session B × C}
    {result : EStateM.Result SessionError (Session B × C) Unit} (h : Drains ticks p result)
    {steps : Nat} (hsteps : ticks ≤ steps) : Session.sendQueued steps p = enough result := by
  have hisEmpty : ∀ {q : Session B × C}, q.1.queue.content ≠ [] → ¬q.1.queue.isEmpty = true :=
    fun hqueued h => hqueued (List.isEmpty_iff.1 h)
  induction h generalizing steps with
  | emptied hempty => exact sendQueued_of_empty hempty steps _
  | @stuck p p' hqueued htick hready =>
    obtain ⟨steps, rfl⟩ := Nat.exists_eq_add_of_le' hsteps
    have hstop : ((0 : Nat) = 0 && !Channel.ready p'.2) = true := by rw [hready]; rfl
    rw [sendQueued_succ, if_neg (hisEmpty hqueued), htick]
    exact if_pos hstop
  | failed hqueued htick =>
    obtain ⟨steps, rfl⟩ := Nat.exists_eq_add_of_le' hsteps
    rw [sendQueued_succ, if_neg (hisEmpty hqueued), htick]
    rfl
  | @goesOn p p' n ticks result hqueued htick hon hrest ih =>
    obtain ⟨steps, rfl⟩ := Nat.exists_eq_add_of_le' (Nat.le_trans (Nat.le_add_left 1 ticks) hsteps)
    have hgo : ¬(n = 0 && !Channel.ready p'.2) = true := by
      intro hstop
      rw [Bool.and_eq_true, decide_eq_true_eq] at hstop
      rw [hon hstop.1] at hstop
      cases hstop.2
    rw [sendQueued_succ, if_neg (hisEmpty hqueued), htick]
    exact (if_neg hgo).trans (ih (Nat.le_of_succ_le_succ hsteps))

/-! ### The ticks of the loop -/

theorem advanced {p p' : Session B × C} {n : Nat} (hready : Channel.ready p.2 = true)
    (htick : tick p = .ok n p') : Advanced p n p' := by
  obtain ⟨s, channel⟩ := p
  have hticked := Line.ticked (s.line channel)
  have harrived : (s.line channel).confirm.queue = s.arrived := queue_confirm s channel
  have hchannel : (s.line channel).confirm.channel = channel := Line.confirm_channel
  rw [tick_eq] at htick
  generalize Line.tick (s.line channel) = result at hticked htick
  cases hticked with
  | waiting hwaiting => exact absurd (hready.symm.trans hwaiting) (by decide)
  | idle _ hspan =>
    rw [harrived] at hspan
    cases htick
    refine ⟨harrived, ?_, ?_, .inl ⟨hspan, hchannel⟩⟩
    · rw [hspan]
      exact Line.confirm_inFlight
    · rw [hspan]
      rfl
  | written _ hspan hwrite =>
    rw [harrived] at hwrite
    cases htick
    refine ⟨harrived, ?_, ?_, .inr hwrite⟩
    · show (s.line channel).confirm.queue.head.length = _
      rw [harrived]
    · rw [harrived]
  | failed _ hspan hwrite => cases htick

/-- A tick that hands over nothing to a channel that is not ready leaves the queue as it is. -/
theorem not_ready_of_tick {p p' : Session B × C} {n : Nat} (hready : Channel.ready p.2 = false)
    (htick : tick p = .ok n p') :
    n = 0 ∧ Channel.ready p'.2 = false ∧ p'.1.queue = p.1.queue ∧
      p'.1.transmitter = p.1.transmitter ∧ p'.2 = p.2 := by
  rw [tick_of_not_ready hready] at htick
  cases htick
  exact ⟨rfl, hready, rfl, rfl, rfl⟩

/-- **The loop never makes more ticks than are due.** -/
theorem Drains.le_ticksDue {ticks : Nat} {p : Session B × C}
    {result : EStateM.Result SessionError (Session B × C) Unit} (h : Drains ticks p result)
    (hsound : p.1.queue.Sound) : ticks ≤ p.1.ticksDue := by
  have hone : ∀ {q : Session B × C}, q.1.queue.content ≠ [] → 1 ≤ q.1.ticksDue := by
    intro q hqueued
    rw [Session.ticksDue, if_neg hqueued]
    exact Nat.le_add_left 1 _
  induction h with
  | emptied hempty => exact Nat.zero_le _
  | stuck hqueued htick hready => exact hone hqueued
  | failed hqueued htick => exact hone hqueued
  | @goesOn p p' n ticks result hqueued htick hon hrest ih =>
    cases hready : Channel.ready p.2 with
    | true =>
      have hadvanced := advanced hready htick
      have hfewer := hadvanced.ticksDue hsound hqueued
      have hticks := ih (hadvanced.sound hsound)
      omega
    | false =>
      -- before a channel that is not ready the loop does not go on
      obtain ⟨hzero, hstill, -⟩ := not_ready_of_tick hready htick
      rw [hon hzero] at hstill
      cases hstill

/-- **The loop ends.** -/
theorem exists_drains (hsound : s.queue.Sound) (channel : C) :
    ∃ ticks result, Drains ticks (s, channel) result := by
  induction hdue : s.ticksDue generalizing s channel with
  | zero =>
    have hempty : s.queue.content = [] := by
      unfold ticksDue at hdue
      split at hdue
      · assumption
      · cases hdue
    exact ⟨0, _, .emptied hempty⟩
  | succ due ih =>
    have hqueued : s.queue.content ≠ [] := by
      intro hempty
      rw [ticksDue, if_pos hempty] at hdue
      cases hdue
    cases htick : tick (s, channel) with
    | error e p' => exact ⟨1, _, .failed hqueued htick⟩
    | ok n p' =>
      cases hready : Channel.ready channel with
      | false =>
        obtain ⟨rfl, hstill, -⟩ := not_ready_of_tick hready htick
        exact ⟨1, _, .stuck hqueued htick hstill⟩
      | true =>
        by_cases hstop : n = 0 ∧ Channel.ready p'.2 = false
        · obtain ⟨rfl, hstill⟩ := hstop
          exact ⟨1, _, .stuck hqueued htick hstill⟩
        · have hadvanced := advanced hready htick
          have hfewer := hadvanced.ticksDue hsound hqueued
          have hnext : p'.1.ticksDue = due := by
            have hsame : (s, channel).1.ticksDue = due + 1 := hdue
            omega
          obtain ⟨ticks, result, hrest⟩ := ih (hadvanced.sound hsound) p'.2 hnext
          refine ⟨ticks + 1, result, .goesOn hqueued htick (fun hzero => ?_) hrest⟩
          exact eq_true_of_ne_false fun hstill => hstop ⟨hzero, hstill⟩

/-! ### What is taken -/

/-- If sending does not fail, what has been taken and what is still to be written is the same
afterwards. -/
theorem Drains.conserved {ticks : Nat} {p : Session B × C}
    {result : EStateM.Result SessionError (Session B × C) Unit} (h : Drains ticks p result)
    {taken : C → Bytes} (htakes : Channel.Takes taken) {left : Session B × C}
    (hok : result = .ok () left) :
    taken left.2 ++ left.1.unwritten = taken p.2 ++ p.1.unwritten := by
  have htick : ∀ {p p' : Session B × C} {n : Nat}, tick p = .ok n p' →
      taken p'.2 ++ p'.1.unwritten = taken p.2 ++ p.1.unwritten := by
    intro p p' n htick
    cases hready : Channel.ready p.2 with
    | true => exact (advanced hready htick).conserved htakes
    | false =>
      obtain ⟨-, -, hqueue, htransmitter, hchannel⟩ := not_ready_of_tick hready htick
      rw [unwritten, unwritten, hqueue, htransmitter, hchannel]
  induction h with
  | emptied hempty =>
    cases hok
    rfl
  | stuck hqueued hlast hready =>
    cases hok
    exact htick hlast
  | failed hqueued hlast => cases hok
  | goesOn hqueued hnext hon hrest ih => exact (ih hok).trans (htick hnext)

/-- If the channel is ready when sending ends without a failure, then the queue is empty. -/
theorem Drains.content_eq_nil {ticks : Nat} {p : Session B × C}
    {result : EStateM.Result SessionError (Session B × C) Unit} (h : Drains ticks p result)
    {left : Session B × C} (hok : result = .ok () left) (hready : Channel.ready left.2 = true) :
    left.1.queue.content = [] := by
  induction h with
  | emptied hempty =>
    cases hok
    exact hempty
  | stuck hqueued htick hstill =>
    cases hok
    exact absurd (hready.symm.trans hstill) (by decide)
  | failed hqueued htick => cases hok
  | goesOn hqueued htick hon hrest ih => exact ih hok

end Loop

/-- What is said of sending what is queued before a channel, of which `taken` tells what it has
taken. -/
structure SentWithin [Board B] [Channel C] (most : Nat) (taken : C → Bytes) (s : Session B)
    (channel : C) : Prop where
  /-- Sending ends. -/
  ends : ∃ ticks result, Drains ticks (s, channel) result
  /-- It makes at most so many ticks. -/
  ticks_le : ∀ {ticks result}, Drains ticks (s, channel) result → ticks ≤ most
  /-- It is what `sendQueued` does, whose bound is never reached. -/
  sendQueued_eq : ∀ {ticks result}, Drains ticks (s, channel) result →
    ∀ steps, min most (s.queue.length + 1) ≤ steps →
      sendQueued steps (s, channel) = enough result
  /-- If it does not fail and the channel is ready afterwards, then all that was queued and not on
  its way has been taken, in order and nothing else, and the queue is empty. -/
  complete : ∀ {ticks s' channel'}, Drains ticks (s, channel) (.ok () (s', channel')) →
    Channel.ready channel' = true →
      s'.queue.content = [] ∧ taken channel' = taken channel ++ s.unwritten

theorem sentWithin_three [Board B] [Channel C] {taken : C → Bytes} (htakes : Channel.Takes taken)
    (hsound : s.queue.Sound) (channel : C) : s.SentWithin 3 taken channel := by
  refine ⟨exists_drains hsound channel, fun h => ?_, fun h steps hsteps => ?_, fun h hready => ?_⟩
  · exact Nat.le_trans (h.le_ticksDue hsound) s.ticksDue_le_three
  · have hdue : s.ticksDue ≤ min 3 (s.queue.length + 1) :=
      Nat.le_min.2 ⟨s.ticksDue_le_three, ticksDue_le_length hsound⟩
    exact h.sendQueued (Nat.le_trans (h.le_ticksDue hsound) (Nat.le_trans hdue hsteps))
  · have hempty := h.content_eq_nil rfl hready
    have hconserved := h.conserved htakes rfl
    refine ⟨hempty, ?_⟩
    rw [unwritten, hempty, List.drop_nil, List.append_nil] at hconserved
    exact hconserved

/-- **What is queued is sent in at most three ticks**, whatever has happened to the session and
whoever else has used its queue, before any channel of either kind: one that is done with a span at
once or later, is open or closed, has a span on its way or not, or hands over to a writer that takes
what it likes and may fail.  If no tick fails and the channel is ready in the end, then it has taken
all that was queued and was not on its way already, and the queue is empty.

All that this needs of a channel is that it takes what it says it takes. -/
theorem sent_within_three_ticks [Board B] (h : s.Shared settings) :
    (∀ channel : Recorder, s.SentWithin 3 Recorder.written channel) ∧
      (∀ channel : WriterChannel, s.SentWithin 3 WriterChannel.taken channel) ∧
      ∀ (C : Type) [Channel C] (taken : C → Bytes), Channel.Takes taken →
        ∀ channel : C, s.SentWithin 3 taken channel :=
  ⟨sentWithin_three Recorder.takes h.sound, sentWithin_three WriterChannel.takes h.sound,
    fun _ _ _ htakes => sentWithin_three htakes h.sound⟩

/-- The theorem for a session whose content wraps around, so that there are two pieces to be
written: two ticks are not enough. -/
theorem sent_within_three_ticks_around :
    let settings : Settings := { Settings.standard with queueCapacity := 8 }
    let ops : List QueueOp := [.push [1, 2, 3, 4, 5, 6], .pull 4, .push [7, 8, 9, 10]]
    let s : Session VirtualBoard := ops.foldl
      (fun s op => { s with queue := (op.perform s.queue).2 }) (.new settings (.new settings.board))
    s.Shared settings ∧ s.queue.head = [5, 6, 7, 8] ∧
      s.SentWithin 3 Recorder.written .immediate ∧
      (match sendQueued 2 (s, Recorder.immediate) with
        | .ok sent _ => some sent
        | .error _ _ => none) = some false := by
  intro settings ops s
  have hs : s.Shared settings := (((Shared.new _).others _).others _).others _
  exact ⟨hs, by decide +kernel, (sent_within_three_ticks hs).1 .immediate, by decide +kernel⟩

end Session
end PinBridge
