/-
PinBridge/Proofs/Receiver/Chunks.lean

Where a stream is cut into chunks does not matter.

A pass of the receiver copies as many bytes as the chunk holds and the current
part still needs.  If the chunk ends first, the rest of the part comes with the
next chunk, and the two copies lie side by side in the buffer as if they were
one (`absorb_absorb`); if the part ends first, the pass does not see the end of
the chunk at all.  So by induction on the passes over the first chunk, feeding
two chunks is feeding one (`consume_append`), whatever the handler does and
wherever it fails.

`feed_flatten` states it of whole feeds, with a record of every message handed
over.  The states are compared as they are: not only what can be observed of
them, but every cell of the buffer.
-/
import PinBridge.Proofs.Receiver.Reachable

namespace PinBridge

/-- The handler that also keeps a record of what it is given, refused or not. -/
def Handler.recorded {d : Direction} {ε σ : Type} (handle : Handler d ε σ) :
    Handler d ε (σ × List (Received d)) := fun received (s, record) =>
  match handle received s with
  | .ok () s => .ok () (s, record ++ [received])
  | .error e s => .error e (s, record ++ [received])

namespace Receiver

variable {d : Direction} {ε σ : Type} {ofStream : StreamError → ε} {handle : Handler d ε σ}

/-! ### One pass after the other -/

/-- Go on after a step, unless it failed. -/
def andThen (result : EStateM.Result ε (Receiver × σ) Unit)
    (next : Receiver → σ → EStateM.Result ε (Receiver × σ) Unit) :
    EStateM.Result ε (Receiver × σ) Unit :=
  match result with
  | .ok () (r, s) => next r s
  | .error e stopped => .error e stopped

@[simp] theorem andThen_ok (r : Receiver) (s : σ)
    (next : Receiver → σ → EStateM.Result ε (Receiver × σ) Unit) :
    andThen (.ok () (r, s)) next = next r s := rfl

theorem consume_nil (r : Receiver) (s : σ) :
    consume ofStream handle [] r s = .ok () (r, s) := by
  rw [consume]
  simp

/-- What one pass does to the first bytes, and the passes that follow to the rest. -/
theorem consume_eq {bs : Bytes} (hbs : bs ≠ []) (r : Receiver) (s : σ) :
    consume ofStream handle bs r s
      = andThen (advance ofStream handle (r.absorb (bs.take r.remaining)) s)
          (consume ofStream handle (bs.drop r.remaining)) := by
  rw [consume, if_neg (by simpa using hbs)]
  split <;> simp only [andThen, *]

/-- Waiting for a byte, a receiver stays as it is. -/
theorem advance_of_pos {r : Receiver} (h : 0 < r.remaining) (s : σ) :
    advance ofStream handle r s = .ok () (r, s) := by
  rw [advance, if_neg (Nat.ne_of_gt h)]

/-! ### Two chunks -/

/-- Two copies side by side are one. -/
theorem absorb_absorb {r : Receiver} {a b : Bytes}
    (h : r.cursor + (a ++ b).length ≤ Wire.longestMessage) :
    (r.absorb a).absorb b = r.absorb (a ++ b) := by
  simp only [absorb, Buffer.write_write r.buffer h, List.length_append, Nat.add_assoc, Nat.sub_sub]

/-- A pass over bytes that do not complete the current part copies them. -/
theorem advance_absorb_of_lt {bs : Bytes} {r : Receiver} (h : bs.length < r.remaining) (s : σ) :
    advance ofStream handle (r.absorb (bs.take r.remaining)) s = .ok () (r.absorb bs, s) := by
  have hpos : 0 < (r.absorb bs).remaining := Nat.sub_pos_of_lt h
  rw [List.take_of_length_le (Nat.le_of_lt h), advance_of_pos hpos]

/-- A chunk that ends before the current part does is copied, and that is all. -/
theorem consume_of_lt {bs : Bytes} {r : Receiver} (h : bs.length < r.remaining) (s : σ) :
    consume ofStream handle bs r s = .ok () (r.absorb bs, s) := by
  by_cases hbs : bs = []
  · subst hbs
    rw [consume_nil]
    simp [absorb]
  · rw [consume_eq hbs, advance_absorb_of_lt h, andThen_ok,
      List.drop_of_length_le (Nat.le_of_lt h), consume_nil]

/-- The bytes after such a chunk go on where it ended. -/
theorem consume_append_of_lt {a : Bytes} {r : Receiver} (hr : Coherent d r)
    (h : a.length < r.remaining) (b : Bytes) (s : σ) :
    consume ofStream handle (a ++ b) r s = consume ofStream handle b (r.absorb a) s := by
  by_cases hb : b = []
  · subst hb
    rw [List.append_nil, consume_of_lt h, consume_nil]
  · have hrest : (r.absorb a).remaining = r.remaining - a.length := rfl
    have htake : (a ++ b).take r.remaining = a ++ b.take (r.remaining - a.length) := by
      rw [List.take_append, List.take_of_length_le (Nat.le_of_lt h)]
    have hdrop : (a ++ b).drop r.remaining = b.drop (r.remaining - a.length) := by
      rw [List.drop_append, List.drop_of_length_le (Nat.le_of_lt h), List.nil_append]
    have hfits : r.cursor + (a ++ b.take (r.remaining - a.length)).length
        ≤ Wire.longestMessage := by
      have := hr.sound.fits
      rw [List.length_append, List.length_take]
      omega
    rw [consume_eq (by simp [hb]), consume_eq hb, hrest, htake, hdrop, absorb_absorb hfits]

/-- **Feeding two chunks is feeding one.** -/
theorem consume_append {a : Bytes} {r : Receiver} (hr : Coherent d r) (hhalted : r.halted = false)
    (b : Bytes) (s : σ) :
    consume ofStream handle (a ++ b) r s
      = andThen (consume ofStream handle a r s) (consume ofStream handle b) := by
  fun_induction consume ofStream handle a r s with
  | case1 a r s hempty =>
    rw [List.isEmpty_iff.1 hempty]
    rfl
  | case2 a r s ha r' s' hpass ih =>
    by_cases hlt : a.length < r.remaining
    · -- the chunk ends inside the current part
      rw [advance_absorb_of_lt hlt] at hpass
      cases hpass
      rw [consume_append_of_lt hr hlt, List.drop_of_length_le (Nat.le_of_lt hlt), consume_nil,
        andThen_ok]
    · -- the current part ends first, and the pass is the same as over both chunks
      have hle : r.remaining ≤ a.length := Nat.le_of_not_lt hlt
      have hne : a ++ b ≠ [] := List.append_ne_nil_of_left_ne_nil (by simpa using ha) b
      rw [consume_eq hne, List.take_append_of_le_length hle, List.drop_append_of_le_length hle,
        hpass, andThen_ok]
      have hsound : Sound d (r.absorb (a.take r.remaining)) :=
        hr.sound.absorb (List.length_take_le r.remaining a)
      exact ih (hsound.coherent_of_advance hhalted hpass) ((halted_of_advance hpass).trans hhalted)
  | case3 a r s ha e stopped hpass =>
    have hle : r.remaining ≤ a.length := by
      -- a pass that does not complete the current part cannot fail
      refine Nat.le_of_not_lt fun hlt => ?_
      rw [advance_absorb_of_lt hlt] at hpass
      cases hpass
    have hne : a ++ b ≠ [] := List.append_ne_nil_of_left_ne_nil (by simpa using ha) b
    rw [consume_eq hne, List.take_append_of_le_length hle, hpass]
    rfl

/-- A run of bytes that does not stop the receiver leaves it running. -/
theorem halted_of_consume {bs : Bytes} {r r' : Receiver} {s s' : σ}
    (h : consume ofStream handle bs r s = .ok () (r', s')) : r'.halted = r.halted := by
  fun_induction consume ofStream handle bs r s with
  | case1 bs r s hempty =>
    cases h
    rfl
  | case2 bs r s hbs r₁ s₁ hpass ih => exact (ih h).trans ((halted_of_advance hpass).trans rfl)
  | case3 bs r s hbs e stopped hpass => cases h

/-! ### Whole feeds -/

/-- A feed that does not fail leaves a coherent and running receiver. -/
theorem coherent_of_feed {bs : Bytes} {r r' : Receiver} {s s' : σ} (hr : Coherent d r)
    (hhalted : r.halted = false) (h : feed ofStream handle bs (r, s) = .ok () (r', s')) :
    Coherent d r' ∧ r'.halted = false := by
  rw [feed_of_running hhalted] at h
  have hleft : Coherent d (left (consume ofStream handle bs r s)) := hr.consume hhalted
  rw [h] at hleft
  exact ⟨hleft, (halted_of_consume h).trans hhalted⟩

/-- Feeding two chunks to a running receiver is feeding one. -/
theorem feed_append {r : Receiver} (hr : Coherent d r) (hhalted : r.halted = false)
    (a b : Bytes) (s : σ) :
    feed ofStream handle (a ++ b) (r, s)
      = (do feed ofStream handle a; feed ofStream handle b) (r, s) := by
  show feed ofStream handle (a ++ b) (r, s)
    = EStateM.bind (feed ofStream handle a) (fun _ => feed ofStream handle b) (r, s)
  rw [feed_of_running hhalted, consume_append hr hhalted, EStateM.bind, feed_of_running hhalted]
  cases hfirst : consume ofStream handle a r s with
  | ok _ stopped =>
    obtain ⟨r', s'⟩ := stopped
    have hrunning : r'.halted = false := (halted_of_consume hfirst).trans hhalted
    exact (feed_of_running hrunning b s').symm
  | error e stopped => rfl

/-- Feeding chunks to a running receiver is feeding what they make up together. -/
theorem forM_feed {r : Receiver} (hr : Coherent d r) (hhalted : r.halted = false)
    (chunks : List Bytes) (s : σ) :
    chunks.forM (feed ofStream handle) (r, s) = feed ofStream handle chunks.flatten (r, s) := by
  induction chunks generalizing r s with
  | nil =>
    rw [List.flatten_nil, feed_of_running hhalted, consume_nil]
    rfl
  | cons chunk chunks ih =>
    rw [List.flatten_cons, feed_append hr hhalted]
    show EStateM.bind (feed ofStream handle chunk)
        (fun _ => chunks.forM (feed ofStream handle)) (r, s)
      = EStateM.bind (feed ofStream handle chunk)
        (fun _ => feed ofStream handle chunks.flatten) (r, s)
    rw [EStateM.bind, EStateM.bind]
    cases hfirst : feed ofStream handle chunk (r, s) with
    | ok _ stopped =>
      obtain ⟨r', s'⟩ := stopped
      obtain ⟨hr', hrunning⟩ := coherent_of_feed hr hhalted hfirst
      exact ih hr' hrunning s'
    | error e stopped => rfl

/-- **However a stream is cut into chunks, a running receiver does with it what it does with the
whole**: the same messages in the same order, the same state of the handler, the same result, and
the same receiver.  This holds of two chunks as of any number, and of empty ones. -/
theorem feed_flatten (ofStream : StreamError → ε) (handle : Handler d ε σ) {r : Receiver}
    (hr : Reachable d r) (hhalted : r.halted = false) (s : σ) :
    (∀ a b : Bytes,
      feed ofStream handle.recorded (a ++ b) (r, s, [])
        = (do feed ofStream handle.recorded a; feed ofStream handle.recorded b) (r, s, [])) ∧
    ∀ chunks : List Bytes,
      feed ofStream handle.recorded chunks.flatten (r, s, [])
        = chunks.forM (feed ofStream handle.recorded) (r, s, []) := by
  refine ⟨fun a b => ?_, fun chunks => ?_⟩
  · exact feed_append hr.coherent hhalted a b (s, [])
  · exact (forM_feed hr.coherent hhalted chunks (s, [])).symm

/-- Takes one message and refuses the others. -/
def takesOne : Handler .incoming StreamError Nat := fun _ taken =>
  if taken = 0 then .ok () 1 else .error .halted taken

/-- A receiver with the first two bytes of a message. -/
def begun : Receiver := left (feed id takesOne [13, 1] (.new .abort, 0))

/-- The theorem for a receiver in the middle of a message.  The second message is refused, so that
the last chunk is not taken. -/
theorem feed_flatten_begun :
    Reachable .incoming begun ∧ begun.halted = false ∧ begun.held = [13, 1] ∧
      feed id takesOne.recorded [2, 3, 1, 1] (begun, 0, [])
        = [[2], [], [3, 1], [1]].forM (feed id takesOne.recorded) (begun, 0, []) := by
  have hr : Reachable .incoming begun := .feed id takesOne [13, 1] 0 (.new .abort)
  have hhalted : begun.halted = false := by decide +kernel
  refine ⟨hr, hhalted, by decide +kernel, ?_⟩
  exact (feed_flatten id takesOne hr hhalted 0).2 [[2], [], [3, 1], [1]]

end Receiver
end PinBridge
