/-
PinBridge/Proofs/Receiver/Recoveries.lean

A receiver that aborts, and one that resynchronises, at the same place of a
stream.

Both cut what they hold and what they are fed into the same segments.  If the
one that aborts does not fail, then there was nothing to skip and nothing was
refused, and both have done the same.  If it fails, its handler has come to a
state through which the other one passes on its way.

Main statements: `Abreast.feed_of_ok` and `Abreast.feed_of_error`.
-/
import PinBridge.Proofs.Receiver.Standing

namespace PinBridge

/-! ### Segments in turn -/

namespace Handler

variable {d : Direction} {ε σ : Type} {ofStream : StreamError → ε} {handle : Handler d ε σ}

theorem next_eq_stateOf (handle : Handler d ε σ) (received : Received d) (s : σ) :
    handle.next received s = stateOf (handle received s) := by
  unfold next
  cases handle received s <;> rfl

theorem forM_play_cons (segment : Segment) (segments : List Segment) (s : σ) :
    (segment :: segments).forM (Segment.play ofStream handle) s
      = EStateM.bind (segment.play ofStream handle)
          (fun _ => segments.forM (Segment.play ofStream handle)) s := rfl

/-- Where segments are played without a failure, none is a stray and no message is refused. -/
theorem played {segments : List Segment} {s s' : σ}
    (h : segments.forM (Segment.play ofStream handle) s = .ok () s') :
    straysIn segments = 0 ∧ handle.refusals (messagesIn d segments) s = 0 ∧
      handle.after (messagesIn d segments) s = s' := by
  induction segments generalizing s with
  | nil =>
    cases h
    exact ⟨rfl, rfl, rfl⟩
  | cons segment segments ih =>
    rw [forM_play_cons, EStateM.bind] at h
    cases segment with
    | stray b => cases h
    | message kind block trailer =>
      rw [straysIn_message, messagesIn_message, refusals, after, refuses, next]
      rw [Segment.play] at h
      split at h
      next hplay =>
        obtain ⟨hstrays, hrefusals, hafter⟩ := ih h
        rw [hplay]
        exact ⟨hstrays, (Nat.zero_add _).trans hrefusals, hafter⟩
      next => cases h

/-- Where playing segments fails, handing over all their messages leads through the state in which
it has failed. -/
theorem stopped {segments : List Segment} {s s' : σ} {e : ε}
    (h : segments.forM (Segment.play ofStream handle) s = .error e s') :
    ∃ rest, handle.after (messagesIn d segments) s = handle.after rest s' := by
  induction segments generalizing s with
  | nil => cases h
  | cons segment segments ih =>
    rw [forM_play_cons, EStateM.bind] at h
    cases segment with
    | stray b =>
      cases h
      exact ⟨messagesIn d segments, rfl⟩
    | message kind block trailer =>
      rw [messagesIn_message, after, next]
      rw [Segment.play] at h
      split at h
      next hplay =>
        rw [hplay]
        exact ih h
      next hplay =>
        cases h
        rw [hplay]
        exact ⟨messagesIn d segments, rfl⟩

end Handler

/-! ### Receivers abreast -/

namespace Receiver

variable {d : Direction} {ε σ : Type} {ofStream : StreamError → ε} {handle : Handler d ε σ}
  {r r' : Receiver}

/-- Two running receivers that hold the same bytes, of which the first one aborts and the second one
resynchronises. -/
structure Abreast (d : Direction) (r r' : Receiver) : Prop where
  reachable : Reachable d r
  reachable' : Reachable d r'
  aborts : r.recovery = .abort
  resyncs : r'.recovery = .resync
  running : r.halted = false
  running' : r'.halted = false
  held : r.held = r'.held

namespace Abreast

/-- What the receiver that aborts makes of a chunk. -/
theorem tallied_feed (h : Abreast d r r') (ofStream : StreamError → ε) (handle : Handler d ε σ)
    (chunk : Bytes) (s : σ) :
    tallied (Receiver.feed ofStream handle chunk (r, s)) =
      match (segmentation d (r.held ++ chunk)).segments.forM (Segment.play ofStream handle) s with
      | .ok () s' => .ok () (⟨r.decoded
          + (messagesIn d (segmentation d (r.held ++ chunk)).segments).length, r.dropped,
          (segmentation d (r.held ++ chunk)).tail, false⟩, s')
      | .error e s' => .error e (⟨r.decoded + (messagesIn d (handle.untilFailure ofStream
          (segmentation d (r.held ++ chunk)).segments s)).length, r.dropped, [], true⟩, s') := by
  have habort := consume_of_abort ofStream handle (segmented d (r.held ++ chunk)) h.aborts s
  rw [← h.reachable.consume_eq_restart h.running, h.running] at habort
  rw [feed_of_running h.running]
  exact habort

/-- What the receiver that resynchronises makes of a chunk. -/
theorem exists_feed' (h : Abreast d r r') (ofStream : StreamError → ε) (handle : Handler d ε σ)
    (chunk : Bytes) (s : σ) :
    let parts := segmentation d (r.held ++ chunk)
    let messages := messagesIn d parts.segments
    ∃ r₂ : Receiver,
      Receiver.feed ofStream handle chunk (r', s) = .ok () (r₂, handle.after messages s) ∧
      r₂.tally = ⟨r'.decoded + messages.length,
        r'.dropped + (straysIn parts.segments + handle.refusals messages s), parts.tail,
        false⟩ := by
  intro parts messages
  have hresync := consume_of_resync ofStream handle (segmented d (r.held ++ chunk)) h.resyncs s
  rw [h.held, ← h.reachable'.consume_eq_restart h.running', ← h.held, h.running'] at hresync
  rw [feed_of_running h.running']
  cases hresult : Receiver.consume ofStream handle chunk r' s with
  | error e left =>
    rw [hresult] at hresync
    cases hresync
  | ok _ left =>
    obtain ⟨r₂, s₂⟩ := left
    rw [hresult] at hresync
    injection hresync with _ hleft
    obtain ⟨htally, rfl⟩ := Prod.mk.inj hleft
    exact ⟨r₂, rfl, htally⟩

/-- **Where the receiver that aborts does not fail, the other one does the same.** -/
theorem feed_of_ok (h : Abreast d r r') {chunk : Bytes} {s s₁ : σ} {r₁ : Receiver}
    (hfeed : Receiver.feed ofStream handle chunk (r, s) = .ok () (r₁, s₁)) :
    ∃ (r₂ : Receiver) (n : Nat), Receiver.feed ofStream handle chunk (r', s) = .ok () (r₂, s₁) ∧
      r₁.tally = ⟨r.decoded + n, r.dropped, r₂.held, false⟩ ∧
      r₂.tally = ⟨r'.decoded + n, r'.dropped, r₂.held, false⟩ := by
  have habort := h.tallied_feed ofStream handle chunk s
  obtain ⟨r₂, hresync, htally'⟩ := h.exists_feed' ofStream handle chunk s
  rw [hfeed] at habort
  split at habort
  next hplayed =>
    obtain ⟨hstrays, hrefusals, hafter⟩ := Handler.played hplayed
    injection habort with _ hleft
    obtain ⟨htally, rfl⟩ := Prod.mk.inj hleft
    have hheld : r₂.held = (segmentation d (r.held ++ chunk)).tail := congrArg Tally.held htally'
    rw [hafter] at hresync
    refine ⟨r₂, (messagesIn d (segmentation d (r.held ++ chunk)).segments).length, hresync, ?_, ?_⟩
    · rw [htally, hheld]
    · rw [htally', hheld, hstrays, hrefusals]
      rfl
  next => cases habort

/-- **Where the receiver that aborts fails, the other one passes through the state that is left
behind.** -/
theorem feed_of_error (h : Abreast d r r') {chunk : Bytes} {s s₁ : σ} {r₁ : Receiver} {e : ε}
    (hfeed : Receiver.feed ofStream handle chunk (r, s) = .error e (r₁, s₁)) :
    ∃ (r₂ : Receiver) (rest : List (Received d)),
      Receiver.feed ofStream handle chunk (r', s) = .ok () (r₂, handle.after rest s₁) := by
  have habort := h.tallied_feed ofStream handle chunk s
  obtain ⟨r₂, hresync, -⟩ := h.exists_feed' ofStream handle chunk s
  rw [hfeed] at habort
  split at habort
  next => cases habort
  next hstopped =>
    obtain ⟨rest, hrest⟩ := Handler.stopped hstopped
    injection habort with _ hleft
    obtain ⟨-, rfl⟩ := Prod.mk.inj hleft
    rw [hrest] at hresync
    exact ⟨r₂, rest, hresync⟩

end Abreast
end Receiver
end PinBridge
