/-
PinBridge/Proofs/Line/Retry.lean

Which bytes a line hands to a writer, and when it hands one over again.

A tick that fails leaves its span in the queue, and the next one starts from
the front of the queue again.  If the writer had taken a part of the span
before the failure, or all of it before a failing flush, that part is handed
over a second time.

Every byte that the writer has taken is traced back to its position in the
accepted bytes.  Three courses are possible (`Course`): no tick has failed after
handing over bytes, and the positions are the first ones in order; one has, and
none has handed over bytes since; or one has, and a later one started again at
a position before.

Main statement: `sent_nodup_iff`, no position is sent twice exactly when no
byte is handed over after a tick that failed after handing over bytes.
-/
import Mathlib.Data.List.Nodup
import PinBridge.Proofs.Line.Backed
import PinBridge.Proofs.Channel.Writer

namespace PinBridge

/-! ### Trials -/

/-- What came of a tick. -/
structure Trial where
  /-- How many bytes the writer has taken. -/
  handed : Nat
  failed : Bool
  deriving DecidableEq, Repr

/-- No byte is handed over after a failure that had handed over bytes. -/
def Trial.Harmless (first second : Trial) : Prop :=
  first.failed = true → 0 < first.handed → second.handed = 0

instance (first second : Trial) : Decidable (first.Harmless second) := by
  unfold Trial.Harmless
  infer_instance

/-- What comes of a tick of this line. -/
def Line.trial (l : Line WriterChannel) : Trial where
  handed := (left (tick l)).channel.taken.length - l.channel.taken.length
  failed :=
    match tick l with
    | .ok _ _ => false
    | .error _ _ => true

/-- What a tick hands over is a front of the queue.  It counts as passed unless the tick fails. -/
theorem Line.tick_writer (l : Line WriterChannel) :
    ∃ front, front <+: l.confirm.queue.content ∧
      (left (tick l)).channel.taken = l.channel.taken ++ front ∧
      l.trial.handed = front.length ∧
      (front ≠ [] → (left (tick l)).transmitter.confirmed = l.transmitter.passed) ∧
      (left (tick l)).transmitter.passed
        = l.transmitter.passed + if l.trial.failed then 0 else front.length := by
  have hticked := l.ticked
  unfold trial
  generalize tick l = result at hticked ⊢
  cases hticked with
  | waiting hready =>
    refine ⟨[], List.nil_prefix, (List.append_nil _).symm, Nat.sub_self _, ?_, rfl⟩
    exact fun hfront => absurd rfl hfront
  | idle hready hspan =>
    refine ⟨[], List.nil_prefix, ?_, ?_, fun hfront => absurd rfl hfront, confirm_passed⟩
    · rw [left, confirm_channel, List.append_nil]
    · rw [left, confirm_channel]
      exact Nat.sub_self _
  | @written channel hready hspan hwrite =>
    have htaken : channel.taken = l.channel.taken ++ l.confirm.queue.head :=
      WriterChannel.taken_of_write_ok hwrite
    refine ⟨l.confirm.queue.head, Queue.head_prefix _, htaken, ?_, fun _ => confirm_confirmed, ?_⟩
    · show channel.taken.length - l.channel.taken.length = l.confirm.queue.head.length
      rw [htaken, List.length_append, Nat.add_sub_cancel_left]
    · show l.confirm.transmitter.confirmed + l.confirm.queue.head.length
        = l.transmitter.passed + l.confirm.queue.head.length
      rw [confirm_confirmed]
  | @failed e channel hready hspan hwrite =>
    obtain ⟨front, hfront, htaken⟩ := WriterChannel.taken_of_write_error hwrite
    refine ⟨front, hfront.trans (Queue.head_prefix _), htaken, ?_, fun _ => confirm_confirmed,
      confirm_passed⟩
    show channel.taken.length - l.channel.taken.length = front.length
    rw [htaken, List.length_append, Nat.add_sub_cancel_left]

/-! ### Histories -/

/-- What may happen to a line over a writer. -/
inductive WriterEvent where
  | enqueue (data : Bytes)
  | enqueueParts (header trailer : Bytes)
  | tick
  deriving DecidableEq, Repr

/-- The traffic of a line over a writer, with what has come of its ticks. -/
structure History where
  traffic : Traffic WriterChannel
  /-- The positions, in the accepted bytes, of the bytes that the writer has taken. -/
  sent : List Nat
  trials : List Trial

namespace History

/-- Nothing has happened yet. -/
def start (capacity : Nat) (writer : ScriptedWriter) : History :=
  ⟨.start capacity (.new writer), [], []⟩

/-- All bytes that the queue has accepted. -/
def accepted (h : History) : Bytes := h.traffic.accepted

/-- All bytes that the writer has taken. -/
def taken (h : History) : Bytes := h.traffic.line.channel.taken

/-- The line ticks.  What it hands over starts at the first byte that is not confirmed. -/
def tick (h : History) : History where
  traffic := h.traffic.tick
  sent := h.sent
    ++ List.range' h.traffic.tick.line.transmitter.confirmed h.traffic.line.trial.handed
  trials := h.trials ++ [h.traffic.line.trial]

def apply : WriterEvent → History → History
  | .enqueue data, h => { h with traffic := h.traffic.offer data [] }
  | .enqueueParts header trailer, h => { h with traffic := h.traffic.offer header trailer }
  | .tick, h => h.tick

/-- One event after the other. -/
def run (events : List WriterEvent) (h : History) : History :=
  events.foldl (fun h event => apply event h) h

end History

/-! ### Where the bytes come from -/

/-- The bytes at a run of positions. -/
theorem map_range'_getElem? {bs front : Bytes} {first : Nat} (h : front <+: bs.drop first) :
    (List.range' first front.length).map (bs[·]?) = front.map some := by
  obtain ⟨rest, hrest⟩ := h
  apply List.ext_getElem?
  intro j
  rw [List.getElem?_map, List.getElem?_map]
  by_cases hj : j < front.length
  · have hbyte : bs[first + j]? = front[j]? := by
      rw [← List.getElem?_drop, ← hrest, List.getElem?_append_left hj]
    rw [List.getElem?_range' hj, Option.map_some, Nat.one_mul, hbyte,
      List.getElem?_eq_getElem hj, Option.map_some]
  · rw [List.getElem?_eq_none (by simpa using hj), List.getElem?_eq_none (by simpa using hj)]
    rfl

/-- Every byte that the writer has taken is the accepted byte at its position. -/
structure Traced (h : History) : Prop where
  backed : Backed h.traffic
  source : h.sent.map (h.accepted[·]?) = h.taken.map some

namespace Traced

variable {h : History}

/-- The positions lie in the accepted bytes. -/
theorem lt_length (ht : Traced h) {i : Nat} (hi : i ∈ h.sent) : i < h.accepted.length := by
  have hmem : h.accepted[i]? ∈ h.taken.map some := ht.source ▸ List.mem_map_of_mem hi
  obtain ⟨b, -, hb⟩ := List.mem_map.1 hmem
  exact (List.getElem?_eq_some_iff.1 hb.symm).1

/-- Accepting further bytes leaves the positions where they are. -/
theorem offer (ht : Traced h) (header trailer : Bytes) :
    Traced { h with traffic := h.traffic.offer header trailer } := by
  obtain ⟨added, hadded⟩ := h.traffic.accepted_prefix_offer header trailer
  have hsame : ∀ i ∈ h.sent, (h.accepted ++ added)[i]? = h.accepted[i]? := by
    intro i hi
    exact List.getElem?_append_left (ht.lt_length hi)
  refine ⟨ht.backed.offer header trailer, ?_⟩
  show h.sent.map ((h.traffic.offer header trailer).accepted[·]?)
    = (h.traffic.offer header trailer).line.channel.taken.map some
  rw [← hadded, Traffic.offer_channel]
  exact (List.map_congr_left hsame).trans ht.source

/-- What a tick hands over is what stands at the next positions. -/
theorem tick (ht : Traced h) : Traced h.tick := by
  obtain ⟨front, hfront, htaken, hhanded, hconfirmed, -⟩ := h.traffic.line.tick_writer
  refine ⟨ht.backed.tick, ?_⟩
  show (h.sent ++ List.range' (Line.left (Line.tick h.traffic.line)).transmitter.confirmed
      h.traffic.line.trial.handed).map (h.accepted[·]?)
    = (Line.left (Line.tick h.traffic.line)).channel.taken.map some
  rw [htaken, hhanded, List.map_append, List.map_append, ht.source]
  refine congrArg (h.taken.map some ++ ·) ?_
  by_cases hnil : front = []
  · rw [hnil]
    rfl
  · have hcontent := ht.backed.confirm.content
    rw [hconfirmed hnil]
    apply map_range'_getElem?
    rw [← Line.confirm_confirmed]
    exact hcontent ▸ hfront

/-- If the positions are the first ones in order, what has been taken is the front. -/
theorem prefix_of_range (ht : Traced h) {n : Nat} (hsent : h.sent = List.range n) :
    h.taken <+: h.accepted := by
  have hn : n ≤ h.accepted.length := by
    refine Nat.le_of_not_lt fun hlt => ?_
    have hmem : h.accepted.length ∈ h.sent := by
      rw [hsent]
      exact List.mem_range.2 hlt
    exact absurd (ht.lt_length hmem) (Nat.lt_irrefl _)
  have hfront : h.accepted.take n <+: h.accepted.drop 0 := List.take_prefix _ _
  have hsource := map_range'_getElem? hfront
  rw [List.length_take_of_le hn, ← List.range_eq_range', ← hsent, ht.source] at hsource
  rw [(List.map_inj_right fun _ _ => Option.some.inj).1 hsource]
  exact List.take_prefix _ _

end Traced

/-! ### The three courses -/

/-- How a history has gone so far. -/
inductive Course (h : History) : Prop
  /-- No tick has failed after handing over bytes. -/
  | sound (htrials : ∀ trial ∈ h.trials, trial.failed = true → trial.handed = 0)
      (hsent : h.sent = List.range h.traffic.line.transmitter.passed)
  /-- One has, so that bytes which have been sent count as not passed. -/
  | ahead (n : Nat) (htrials : h.trials.Pairwise Trial.Harmless)
      (hfailed : ∃ trial ∈ h.trials, trial.failed = true ∧ 0 < trial.handed)
      (hsent : h.sent = List.range n) (hpassed : h.traffic.line.transmitter.passed < n)
  /-- One has, and bytes have been handed over since. -/
  | again (htrials : ¬ h.trials.Pairwise Trial.Harmless) (hsent : ¬ h.sent.Nodup)

namespace Course

variable {h : History}

theorem offer (hc : Course h) (header trailer : Bytes) :
    Course { h with traffic := h.traffic.offer header trailer } := by
  cases hc with
  | sound htrials hsent =>
    refine .sound htrials ?_
    rw [Traffic.offer_transmitter]
    exact hsent
  | ahead n htrials hfailed hsent hpassed =>
    refine .ahead n htrials hfailed hsent ?_
    rw [Traffic.offer_transmitter]
    exact hpassed
  | again htrials hsent => exact .again htrials hsent

/-- Failures that had handed over nothing are harmless. -/
theorem pairwise_harmless {trials : List Trial}
    (h : ∀ trial ∈ trials, trial.failed = true → trial.handed = 0) :
    trials.Pairwise Trial.Harmless := by
  refine List.pairwise_of_forall_mem_list ?_
  intro first hfirst _ _ hfailed hpos
  rw [h first hfirst hfailed] at hpos
  exact absurd hpos (Nat.lt_irrefl 0)

/-- As long as everything sent counts as passed, a tick goes on where the one before ended. -/
theorem sent_tick (hsent : h.sent = List.range h.traffic.line.transmitter.passed) :
    h.tick.sent
      = List.range (h.traffic.line.transmitter.passed + h.traffic.line.trial.handed) := by
  obtain ⟨front, -, -, hhanded, hconfirmed, -⟩ := h.traffic.line.tick_writer
  show h.sent ++ List.range' (Line.left (Line.tick h.traffic.line)).transmitter.confirmed
    h.traffic.line.trial.handed = _
  rw [hsent, hhanded]
  by_cases hnil : front = []
  · rw [hnil]
    exact List.append_nil _
  · rw [hconfirmed hnil, List.range_eq_range', List.range_eq_range', ← List.range'_append_1,
      Nat.zero_add]

/-- The next tick may be the first one that fails after handing over bytes. -/
theorem tick_of_sound (htrials : ∀ trial ∈ h.trials, trial.failed = true → trial.handed = 0)
    (hsent : h.sent = List.range h.traffic.line.transmitter.passed) : Course h.tick := by
  obtain ⟨front, -, -, hhanded, -, hpassed⟩ := h.traffic.line.tick_writer
  have hmem : ∀ trial ∈ h.tick.trials, trial ∈ h.trials ∨ trial = h.traffic.line.trial := by
    intro trial htrial
    exact (List.mem_append.1 htrial).imp_right List.mem_singleton.1
  by_cases hlost : h.traffic.line.trial.failed = true ∧ 0 < h.traffic.line.trial.handed
  · -- bytes are handed over that do not count as passed
    refine .ahead _ ?_ ⟨h.traffic.line.trial, ?_, hlost⟩ (sent_tick hsent) ?_
    · refine List.pairwise_append.2 ⟨pairwise_harmless htrials, List.pairwise_singleton _ _, ?_⟩
      intro first hfirst _ _ hfailed hpos
      rw [htrials first hfirst hfailed] at hpos
      exact absurd hpos (Nat.lt_irrefl 0)
    · exact List.mem_append_right _ (List.mem_singleton_self _)
    · show (Line.left (Line.tick h.traffic.line)).transmitter.passed < _
      rw [hpassed, if_pos hlost.1]
      exact Nat.add_lt_add_left hlost.2 _
  · refine .sound ?_ ?_
    · intro trial htrial hfailed
      rcases hmem trial htrial with hold | rfl
      · exact htrials trial hold hfailed
      · exact Nat.eq_zero_of_not_pos fun hpos => hlost ⟨hfailed, hpos⟩
    · rw [sent_tick hsent]
      show List.range _ = List.range (Line.left (Line.tick h.traffic.line)).transmitter.passed
      rw [hpassed, hhanded]
      cases hfailed : h.traffic.line.trial.failed with
      | false => rfl
      | true =>
        -- a failure here has handed over nothing
        have hzero : front.length = 0 :=
          hhanded ▸ Nat.eq_zero_of_not_pos fun hpos => hlost ⟨hfailed, hpos⟩
        rw [hzero]
        rfl

/-- After such a tick, the next one that hands over bytes starts again at a position before. -/
theorem tick_of_ahead {n : Nat} (htrials : h.trials.Pairwise Trial.Harmless)
    (hfailed : ∃ trial ∈ h.trials, trial.failed = true ∧ 0 < trial.handed)
    (hsent : h.sent = List.range n) (hpassed : h.traffic.line.transmitter.passed < n) :
    Course h.tick := by
  obtain ⟨front, -, -, hhanded, hconfirmed, hnext⟩ := h.traffic.line.tick_writer
  obtain ⟨lost, hlost, hfailure, hpos⟩ := hfailed
  by_cases hnil : front = []
  · -- nothing is handed over, and nothing counts as passed that did not before
    have hzero : h.traffic.line.trial.handed = 0 := by
      rw [hhanded, hnil]
      rfl
    refine .ahead n ?_ ⟨lost, List.mem_append_left _ hlost, hfailure, hpos⟩ ?_ ?_
    · refine List.pairwise_append.2 ⟨htrials, List.pairwise_singleton _ _, ?_⟩
      intro first hfirst second hsecond _ _
      rw [List.mem_singleton.1 hsecond]
      exact hzero
    · show h.sent ++ List.range' _ h.traffic.line.trial.handed = _
      rw [hzero, hsent]
      exact List.append_nil _
    · show (Line.left (Line.tick h.traffic.line)).transmitter.passed < n
      rw [hnext, hnil, List.length_nil, ite_self]
      exact hpassed
  · -- the first byte that has not passed is handed over, and it had been sent already
    have hhand : 0 < h.traffic.line.trial.handed := hhanded ▸ List.length_pos_iff.2 hnil
    refine .again (fun hpair => ?_) (fun hnodup => ?_)
    · have hharmless := (List.pairwise_append.1 hpair).2.2 lost hlost h.traffic.line.trial
        (List.mem_singleton_self _) hfailure hpos
      omega
    · have hdisjoint := (List.nodup_append.1 hnodup).2.2
      refine hdisjoint h.traffic.line.transmitter.passed ?_ h.traffic.line.transmitter.passed ?_ rfl
      · rw [hsent]
        exact List.mem_range.2 hpassed
      · show _ ∈ List.range' (Line.left (Line.tick h.traffic.line)).transmitter.confirmed _
        rw [hconfirmed hnil, List.mem_range'_1]
        omega

theorem tick (hc : Course h) : Course h.tick := by
  cases hc with
  | sound htrials hsent => exact tick_of_sound htrials hsent
  | ahead n htrials hfailed hsent hpassed => exact tick_of_ahead htrials hfailed hsent hpassed
  | again htrials hsent =>
    refine .again (fun hpair => htrials ?_) (fun hnodup => hsent ?_)
    · exact (List.pairwise_append.1 hpair).1
    · exact (List.nodup_append.1 hnodup).1

/-- No position is sent twice exactly when every failure was harmless. -/
theorem sent_nodup (hc : Course h) : h.sent.Nodup ↔ h.trials.Pairwise Trial.Harmless := by
  cases hc with
  | sound htrials hsent =>
    exact iff_of_true (hsent ▸ List.nodup_range) (pairwise_harmless htrials)
  | ahead n htrials _ hsent _ => exact iff_of_true (hsent ▸ List.nodup_range) htrials
  | again htrials hsent => exact iff_of_false hsent htrials

/-- If every failure was harmless, the positions are the first ones in order. -/
theorem sent_eq_range (hc : Course h) (htrials : h.trials.Pairwise Trial.Harmless) :
    ∃ n, h.sent = List.range n := by
  cases hc with
  | sound _ hsent => exact ⟨_, hsent⟩
  | ahead n _ _ hsent _ => exact ⟨n, hsent⟩
  | again hnot _ => exact absurd htrials hnot

end Course

/-! ### Whole runs -/

namespace History

variable {h : History}

/-- What accepting and ticking preserve, a run preserves. -/
theorem run_induction {P : History → Prop}
    (hoffer : ∀ {h : History}, P h → ∀ header trailer : Bytes,
      P { h with traffic := h.traffic.offer header trailer })
    (htick : ∀ {h : History}, P h → P h.tick) (hh : P h) (events : List WriterEvent) :
    P (run events h) := by
  induction events generalizing h with
  | nil => exact hh
  | cons event events ih =>
    cases event with
    | enqueue data => exact ih (hoffer hh data [])
    | enqueueParts header trailer => exact ih (hoffer hh header trailer)
    | tick => exact ih (htick hh)

/-- **No byte is sent twice exactly when no tick that failed after handing over bytes is followed
by one that hands over bytes.**  Then what the writer has taken is the front of what has been
accepted.  Otherwise it is not, if the accepted bytes are all different. -/
theorem sent_nodup_iff (capacity : Nat) (writes : List WriteReply) (flushes : List FlushReply)
    (events : List WriterEvent) :
    let h := run events (.start capacity (.new writes flushes))
    h.sent.map (h.accepted[·]?) = h.taken.map some ∧
    (h.sent.Nodup ↔ h.trials.Pairwise Trial.Harmless) ∧
    (h.trials.Pairwise Trial.Harmless → h.taken <+: h.accepted) ∧
    (h.accepted.Nodup → (h.taken <+: h.accepted ↔ h.trials.Pairwise Trial.Harmless)) := by
  intro h
  have hstart : Traced (.start capacity (.new writes flushes)) := ⟨.start _ _, rfl⟩
  have ht : Traced h := run_induction (P := Traced) Traced.offer Traced.tick hstart events
  have hsound : Course (.start capacity (.new writes flushes)) :=
    .sound (fun _ hmem => absurd hmem List.not_mem_nil) rfl
  have hc : Course h := run_induction (P := Course) Course.offer Course.tick hsound events
  have hprefix : h.trials.Pairwise Trial.Harmless → h.taken <+: h.accepted := by
    intro htrials
    obtain ⟨n, hsent⟩ := hc.sent_eq_range htrials
    exact ht.prefix_of_range hsent
  refine ⟨ht.source, hc.sent_nodup, hprefix, fun hdifferent => ⟨fun hfront => ?_, hprefix⟩⟩
  -- a position that is sent twice would be a byte that is accepted twice
  have htaken : (h.taken.map some).Nodup :=
    List.Nodup.map (fun _ _ => Option.some.inj) (hdifferent.sublist hfront.sublist)
  rw [← ht.source] at htaken
  exact hc.sent_nodup.1 (List.Nodup.of_map _ htaken)

/-- A flush that fails is enough: the span before it is taken a second time. -/
theorem taken_again_after_flush :
    let h := run [.enqueue [1, 2, 3], .tick, .tick] (.start 16 (.new [] [.fails .brokenPipe]))
    h.accepted = [1, 2, 3] ∧ h.taken = [1, 2, 3, 1, 2, 3] ∧ ¬ h.taken <+: h.accepted := by
  decide

end History
end PinBridge
