/-
PinBridge/Proofs/Receiver/Handled.lean

What a receiver hands over, and what becomes of the handler's state.

A receiver that is sound hands over nothing but whole messages: the wire is the
tag of a kind, a fixed block of the length that the kind has, and a trailer of
the length that the block announces, and the message is what block and trailer
hold (`Received.Genuine`).  So whatever such messages preserve is preserved by
a feed (`Coherent.keeps_feed`), and nothing else about the receiver has to be
known.

Two more facts hold of every feed.  A handler that does to the image of a state
what another one does to the state is fed with the same result (`feed_map`);
and what the single moves of a receiver preserve, a feed preserves
(`Settled.feed`).
-/
import PinBridge.Proofs.Receiver.Cut

namespace PinBridge

/-! ### Results -/

/-- The state that a step leaves behind, whether it fails or not. -/
def stateOf {ε σ α : Type} : EStateM.Result ε σ α → σ
  | .ok _ s => s
  | .error _ s => s

/-- What a step fails with, if it fails. -/
def errorOf {ε σ α : Type} : EStateM.Result ε σ α → Option ε
  | .ok _ _ => none
  | .error e _ => some e

theorem eq_ok_of_errorOf {ε σ : Type} {result : EStateM.Result ε σ Unit}
    (h : errorOf result = none) : result = .ok () (stateOf result) := by
  cases result with
  | ok _ s => rfl
  | error e s => cases h

/-- The same result with another state. -/
def mapState {ε σ τ α : Type} (f : σ → τ) : EStateM.Result ε σ α → EStateM.Result ε τ α
  | .ok a s => .ok a (f s)
  | .error e s => .error e (f s)

@[simp] theorem stateOf_mapState {ε σ τ α : Type} (f : σ → τ) (result : EStateM.Result ε σ α) :
    stateOf (mapState f result) = f (stateOf result) := by
  cases result <;> rfl

theorem mapState_mapState {ε σ τ υ α : Type} (f : σ → τ) (g : τ → υ)
    (result : EStateM.Result ε σ α) :
    mapState g (mapState f result) = mapState (fun s => g (f s)) result := by
  cases result <;> rfl

/-- Results whose states agree under two maps agree under all maps that see no more. -/
theorem mapState_congr {ε σ ρ τ υ α : Type} {f : σ → τ} {g : ρ → τ} {F : σ → υ} {G : ρ → υ}
    {result : EStateM.Result ε σ α} {result' : EStateM.Result ε ρ α}
    (h : mapState f result = mapState g result') (hFG : ∀ s t, f s = g t → F s = G t) :
    mapState F result = mapState G result' := by
  cases result with
  | ok a s =>
    cases result' with
    | ok a' t =>
      injection h with ha hst
      exact ha ▸ congrArg (EStateM.Result.ok a) (hFG s t hst)
    | error e t => cases h
  | error e s =>
    cases result' with
    | ok a t => cases h
    | error e' t =>
      injection h with he hst
      exact he ▸ congrArg (EStateM.Result.error e) (hFG s t hst)

@[simp] theorem errorOf_mapState {ε σ τ α : Type} (f : σ → τ) (result : EStateM.Result ε σ α) :
    errorOf (mapState f result) = errorOf result := by
  cases result <;> rfl

/-! ### Slices of the buffer -/

namespace Buffer

variable {buffer : Buffer} {first middle stop : Nat}

theorem length_slice (h : stop ≤ Wire.longestMessage) :
    (buffer.slice first stop).length = stop - first := by
  rw [slice, List.length_drop, List.length_take, buffer.length_cells, Nat.min_eq_left h]

/-- Two slices side by side are one. -/
theorem slice_append (hfirst : first ≤ middle) (hmiddle : middle ≤ stop)
    (hstop : stop ≤ Wire.longestMessage) :
    buffer.slice first middle ++ buffer.slice middle stop = buffer.slice first stop := by
  have hlength : first ≤ (buffer.cells.take middle).length := by
    rw [List.length_take, buffer.length_cells]
    omega
  have htake : (buffer.cells.take stop).take middle = buffer.cells.take middle := by
    rw [List.take_take, Nat.min_eq_left hmiddle]
  rw [slice, slice, slice, ← htake, ← List.drop_append_of_le_length (htake ▸ hlength),
    List.take_append_drop]

theorem slice_zero_one : buffer.slice 0 1 = [buffer.cellAt 0] := by
  have hlength := buffer.length_cells
  obtain ⟨cells, hcells⟩ := buffer
  cases cells with
  | nil => cases hlength
  | cons b cells => rfl

end Buffer

/-! ### Whole messages -/

/-- A message that lies on the wire as its kind says. -/
inductive Received.Genuine {d : Direction} : Received d → Prop
  | intro {kind : Kind} {block trailer : Bytes} (hblock : block.length = kind.blockLength d)
      (htrailer : trailer.length = d.trailerLength kind block) :
      Genuine ⟨d.parse kind block trailer, kind.tag :: block ++ trailer⟩

namespace Receiver

variable {d : Direction} {ε σ τ : Type} {ofStream : StreamError → ε} {handle : Handler d ε σ}

/-- **A sound receiver hands over nothing but whole messages.** -/
theorem Sound.genuine {r : Receiver} {received : Received d} (h : Sound d r)
    (hzero : r.remaining = 0) (hturn : r.turn d = .complete received) : received.Genuine := by
  have hfits : r.cursor ≤ Wire.longestMessage := by
    have := h.fits
    omega
  cases h with
  | tag hphase _ _ =>
    simp only [Receiver.turn, hphase] at hturn
    split at hturn <;> cases hturn
  | block kind hphase _ _ _ _ =>
    simp only [Receiver.turn, hphase] at hturn
    cases hturn
  | trailer kind hphase hkind htag hblock hcursor hend =>
    simp only [Receiver.turn, hphase, currentKind_of_kind hkind] at hturn
    cases hturn
    have hone : 1 ≤ r.blockEnd := by omega
    -- the buffer holds the tag, the block and the trailer side by side
    have hlength : (r.buffer.slice 1 r.blockEnd).length = kind.blockLength d := by
      rw [Buffer.length_slice (Nat.le_trans hcursor hfits)]
      omega
    have hrest : (r.buffer.slice r.blockEnd r.cursor).length
        = d.trailerLength kind (r.buffer.slice 1 r.blockEnd) := by
      rw [Buffer.length_slice hfits]
      omega
    have hheld : r.held
        = kind.tag :: r.buffer.slice 1 r.blockEnd ++ r.buffer.slice r.blockEnd r.cursor := by
      have hblockEnd : r.blockEnd ≤ Wire.longestMessage := Nat.le_trans hcursor hfits
      calc r.held
          = r.buffer.slice 0 1 ++ r.buffer.slice 1 r.blockEnd
              ++ r.buffer.slice r.blockEnd r.cursor := by
            rw [Buffer.slice_append (Nat.zero_le 1) hone hblockEnd,
              Buffer.slice_append (Nat.zero_le _) hcursor hfits, held]
        _ = kind.tag :: r.buffer.slice 1 r.blockEnd ++ r.buffer.slice r.blockEnd r.cursor := by
            rw [Buffer.slice_zero_one, htag, List.singleton_append]
    rw [hheld]
    exact .intro hlength hrest

end Receiver

/-! ### The handler's state -/

/-- What whole messages preserve, refused or not. -/
def Handler.Keeps {d : Direction} {ε σ : Type} (handle : Handler d ε σ) (P : σ → Prop) : Prop :=
  ∀ (received : Received d) (s : σ), received.Genuine → P s → P (stateOf (handle received s))

/-- One handler does to the image of a state what another one does to the state. -/
def Handler.Follows {d : Direction} {ε σ τ : Type} (f : σ → τ) (image : Handler d ε τ)
    (handle : Handler d ε σ) : Prop :=
  ∀ (received : Received d) (s : σ), image received (f s) = mapState f (handle received s)

/-- A handler with a record, without the record. -/
theorem Handler.follows_recorded {d : Direction} {ε σ : Type} (handle : Handler d ε σ) :
    Handler.Follows Prod.fst handle handle.recorded := by
  rintro received ⟨s, record⟩
  simp only [Handler.recorded]
  cases handle received s <;> rfl

/-- What a handler with a record leaves behind. -/
theorem Handler.stateOf_recorded {d : Direction} {ε σ : Type} (handle : Handler d ε σ)
    (received : Received d) (s : σ) (record : List (Received d)) :
    stateOf (handle.recorded received (s, record))
      = (stateOf (handle received s), record ++ [received]) := by
  simp only [Handler.recorded]
  cases handle received s <;> rfl

namespace Receiver

variable {d : Direction} {ε σ τ : Type} {ofStream : StreamError → ε} {handle : Handler d ε σ}

section Keeps

variable {P : σ → Prop}

theorem stateOf_fail (r : Receiver) (e : ε) (s : σ) : (stateOf (r.fail e s)).2 = s := by
  unfold fail
  cases r.recovery <;> rfl

theorem stateOf_deliver (received : Received d) (r : Receiver) (s : σ) :
    (stateOf (r.deliver handle received s)).2 = stateOf (handle received s) := by
  unfold deliver
  cases handle received s with
  | ok _ s' => rfl
  | error e s' => exact stateOf_fail _ e s'

theorem Sound.keeps_advance (ofStream : StreamError → ε) {r : Receiver} {s : σ} (h : Sound d r)
    (hkeeps : handle.Keeps P) (hs : P s) :
    P (stateOf (Receiver.advance ofStream handle r s)).2 := by
  -- soundness is carried along, because only it says that what is handed over is whole
  fun_induction Receiver.advance ofStream handle r s with
  | case1 r hzero r' hturn ih => exact ih (h.turn hzero hturn)
  | case2 r hzero received hturn =>
    rw [stateOf_deliver]
    exact hkeeps received s (h.genuine hzero hturn) hs
  | case3 r hzero tag hturn =>
    rw [stateOf_fail]
    exact hs
  | case4 r hpos => exact hs

theorem Coherent.keeps_consume {bs : Bytes} {r : Receiver} {s : σ} (h : Coherent d r)
    (hhalted : r.halted = false) (hkeeps : handle.Keeps P) (hs : P s) :
    P (stateOf (Receiver.consume ofStream handle bs r s)).2 := by
  fun_induction Receiver.consume ofStream handle bs r s with
  | case1 bs r s hempty => exact hs
  | case2 bs r s hbs r' s' hpass ih =>
    have hsound : Sound d (r.absorb (bs.take r.remaining)) :=
      h.sound.absorb (List.length_take_le r.remaining bs)
    have hnext := hsound.keeps_advance ofStream hkeeps hs
    rw [hpass] at hnext
    exact ih (hsound.coherent_of_advance hhalted hpass) ((halted_of_advance hpass).trans hhalted)
      hnext
  | case3 bs r s hbs e stopped hpass =>
    have hsound : Sound d (r.absorb (bs.take r.remaining)) :=
      h.sound.absorb (List.length_take_le r.remaining bs)
    have hnext := hsound.keeps_advance ofStream hkeeps hs
    rw [hpass] at hnext
    exact hnext

/-- **What whole messages preserve, a feed preserves.** -/
theorem Coherent.keeps_feed {r : Receiver} (h : Coherent d r) (hkeeps : handle.Keeps P)
    (chunk : Bytes) {s : σ} (hs : P s) :
    P (stateOf (Receiver.feed ofStream handle chunk (r, s))).2 := by
  cases hhalted : r.halted with
  | true =>
    rw [feed_of_halted hhalted]
    exact hs
  | false =>
    rw [feed_of_running hhalted]
    exact h.keeps_consume hhalted hkeeps hs

end Keeps

section Map

variable {f : σ → τ} {image : Handler d ε τ}

theorem fail_map (f : σ → τ) (r : Receiver) (e : ε) (s : σ) :
    r.fail e (f s) = mapState (Prod.map id f) (r.fail e s) := by
  unfold fail
  cases r.recovery <;> rfl

theorem deliver_map (hfollows : Handler.Follows f image handle) (received : Received d)
    (r : Receiver) (s : σ) :
    r.deliver image received (f s) = mapState (Prod.map id f) (r.deliver handle received s) := by
  unfold deliver
  rw [hfollows received s]
  cases handle received s with
  | ok _ s' => rfl
  | error e s' => exact fail_map f _ e s'

theorem advance_map (hfollows : Handler.Follows f image handle) (r : Receiver) (s : σ) :
    advance ofStream image r (f s) = mapState (Prod.map id f) (advance ofStream handle r s) := by
  fun_induction advance ofStream handle r s with
  | case1 r hzero r' hturn ih =>
    rw [advance_of_zero hzero, hturn]
    exact ih
  | case2 r hzero received hturn =>
    rw [advance_of_zero hzero, hturn]
    exact deliver_map hfollows received r s
  | case3 r hzero tag hturn =>
    rw [advance_of_zero hzero, hturn]
    exact fail_map f r _ s
  | case4 r hpos =>
    rw [advance, if_neg hpos]
    rfl

theorem consume_map (hfollows : Handler.Follows f image handle) (bs : Bytes) (r : Receiver)
    (s : σ) :
    consume ofStream image bs r (f s)
      = mapState (Prod.map id f) (consume ofStream handle bs r s) := by
  fun_induction consume ofStream handle bs r s with
  | case1 bs r s hempty =>
    rw [List.isEmpty_iff.1 hempty, consume_nil]
    rfl
  | case2 bs r s hbs r' s' hpass ih =>
    rw [consume_eq (by simpa using hbs), advance_map hfollows, hpass]
    exact ih
  | case3 bs r s hbs e stopped hpass =>
    rw [consume_eq (by simpa using hbs), advance_map hfollows, hpass]
    rfl

/-- **A handler that follows another one is fed with the same result.** -/
theorem feed_map (hfollows : Handler.Follows f image handle) (chunk : Bytes) (r : Receiver)
    (s : σ) :
    feed ofStream image chunk (r, f s)
      = mapState (Prod.map id f) (feed ofStream handle chunk (r, s)) := by
  cases hhalted : r.halted with
  | true =>
    rw [feed_of_halted hhalted, feed_of_halted hhalted]
    rfl
  | false =>
    rw [feed_of_running hhalted, feed_of_running hhalted]
    exact consume_map hfollows chunk r s

end Map

/-! ### The receiver -/

section Stopped

variable {r r' : Receiver} {s s' : σ} {e : ε}

theorem halted_of_fail_error {cause : ε} (h : r.fail cause s = .error e (r', s')) :
    r'.halted = true := by
  unfold fail at h
  split at h
  · cases h
    rfl
  · cases h

theorem halted_of_advance_error (h : advance ofStream handle r s = .error e (r', s')) :
    r'.halted = true := by
  fun_induction advance ofStream handle r s with
  | case1 r hzero r₁ hturn ih => exact ih h
  | case2 r hzero received hturn =>
    unfold deliver at h
    split at h
    · cases h
    · exact halted_of_fail_error h
  | case3 r hzero tag hturn => exact halted_of_fail_error h
  | case4 r hpos => cases h

/-- A feed that fails leaves a halted receiver. -/
theorem halted_of_feed_error {chunk : Bytes}
    (h : feed ofStream handle chunk (r, s) = .error e (r', s')) : r'.halted = true := by
  cases hhalted : r.halted with
  | true =>
    rw [feed_of_halted hhalted] at h
    cases h
    exact hhalted
  | false =>
    rw [feed_of_running hhalted] at h
    clear hhalted
    fun_induction consume ofStream handle chunk r s with
    | case1 bs r s hempty => cases h
    | case2 bs r s hbs r₁ s₁ hpass ih => exact ih h
    | case3 bs r s hbs e₁ stopped hpass =>
      -- the feed stops with the pass that fails
      cases h
      exact halted_of_advance_error hpass

end Stopped

/-- What the single moves of a receiver preserve. -/
structure Settled (d : Direction) (P : Receiver → Prop) : Prop where
  absorb : ∀ (r : Receiver) (bs : Bytes), P r → P (r.absorb bs)
  turn : ∀ r r' : Receiver, r.turn d = .onward r' → P r → P r'
  complete : ∀ r : Receiver, P r → P r.complete
  skip : ∀ r : Receiver, P r → P r.skip
  halt : ∀ r : Receiver, P r → P r.halt

namespace Settled

variable {P : Receiver → Prop}

theorem fail (hP : Settled d P) {r : Receiver} (hr : P r) (e : ε) (s : σ) :
    P (left (r.fail e s)) := by
  unfold Receiver.fail
  cases r.recovery with
  | abort => exact hP.halt r hr
  | resync => exact hP.skip r hr

theorem deliver (hP : Settled d P) {r : Receiver} (hr : P r) (received : Received d) (s : σ) :
    P (left (r.deliver handle received s)) := by
  unfold Receiver.deliver
  cases handle received s with
  | ok _ s' => exact hP.complete r hr
  | error e s' => exact hP.fail (hP.complete r hr) e s'

theorem advance (hP : Settled d P) (ofStream : StreamError → ε) (handle : Handler d ε σ)
    {r : Receiver} (hr : P r) (s : σ) : P (left (Receiver.advance ofStream handle r s)) := by
  fun_induction Receiver.advance ofStream handle r s with
  | case1 r hzero r' hturn ih => exact ih (hP.turn r r' hturn hr)
  | case2 r hzero received hturn => exact hP.deliver hr received s
  | case3 r hzero tag hturn => exact hP.fail hr _ s
  | case4 r hpos => exact hr

theorem consume (hP : Settled d P) {r : Receiver} (hr : P r) (bs : Bytes) (s : σ) :
    P (left (Receiver.consume ofStream handle bs r s)) := by
  fun_induction Receiver.consume ofStream handle bs r s with
  | case1 bs r s hempty => exact hr
  | case2 bs r s hbs r' s' hpass ih =>
    have hnext := hP.advance ofStream handle (hP.absorb r (bs.take r.remaining) hr) s
    rw [hpass] at hnext
    exact ih hnext
  | case3 bs r s hbs e stopped hpass =>
    have hnext := hP.advance ofStream handle (hP.absorb r (bs.take r.remaining) hr) s
    rw [hpass] at hnext
    exact hnext

/-- **What the single moves preserve, a feed preserves.** -/
theorem feed (hP : Settled d P) {r : Receiver} (hr : P r) (chunk : Bytes) (s : σ) :
    P (left (Receiver.feed ofStream handle chunk (r, s))) := by
  cases hhalted : r.halted with
  | true =>
    rw [feed_of_halted hhalted]
    exact hr
  | false =>
    rw [feed_of_running hhalted]
    exact hP.consume hr chunk s

end Settled

/-- The way of recovery never changes. -/
theorem settled_recovery (recovery : Recovery) : Settled d (·.recovery = recovery) where
  absorb _ _ h := h
  turn r r' hturn h := by
    unfold Receiver.turn at hturn
    split at hturn
    · split at hturn
      · cases hturn
      · cases hturn
        exact h
    · cases hturn
      exact h
    · cases hturn
  complete _ h := h
  skip _ h := h
  halt _ h := h

/-- Where the block ends is forgotten together with the rest of the message. -/
theorem settled_blockEnd : Settled d fun r => r.phase ≠ .trailer → r.blockEnd = 0 where
  absorb _ _ h := h
  turn r r' hturn h := by
    unfold Receiver.turn at hturn
    split at hturn
    next hphase =>
      split at hturn
      · cases hturn
      · cases hturn
        exact fun _ => h (by rw [hphase]; exact Phase.noConfusion)
    · cases hturn
      exact fun hcontra => absurd rfl hcontra
    · cases hturn
  complete _ _ := fun _ => rfl
  skip _ _ := fun _ => rfl
  halt _ _ := fun _ => rfl

theorem Reachable.blockEnd_eq_zero {r : Receiver} (h : Reachable d r)
    (hphase : r.phase ≠ .trailer) : r.blockEnd = 0 := by
  induction h with
  | new recovery => rfl
  | feed ofStream handle chunk s hr ih => exact settled_blockEnd.feed ih chunk s hphase
  | reset hr ih => rfl
  | halt hr ih => rfl

/-- A reachable receiver that holds nothing stands between two messages. -/
theorem Reachable.restart_eq {r : Receiver} (h : Reachable d r) (hcursor : r.cursor = 0) :
    r.restart = r := by
  cases h.coherent.sound with
  | tag hphase hkind hone =>
    have hblockEnd : r.blockEnd = 0 := h.blockEnd_eq_zero (by rw [hphase]; exact Phase.noConfusion)
    have hremaining : r.remaining = 1 := by omega
    -- the buffer and the counts are kept by a restart, and all other fields are known now
    clear h hone
    obtain ⟨recovery, phase, remaining, cursor, blockEnd, kind, buffer, halted, decoded,
      dropped⟩ := r
    subst hphase hkind hcursor hblockEnd hremaining
    rfl
  | block kind hphase hkind htag hone hend => omega
  | trailer kind hphase hkind htag hblock hone hend => omega

end Receiver
end PinBridge
