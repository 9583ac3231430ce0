/-
PinBridge/Proofs/Line/Backed.lean

The queue of a line backs what is written, whatever the channel does with it.

A line is watched together with all the bytes that its queue has accepted so
far.  Bytes enter the queue at its end and leave it at its front, and they leave
it only when they are counted as confirmed.  So the queue holds what has been
accepted without what has been confirmed, the span on its way included, and
what is written next is what comes next in the accepted bytes
(`Backed.take_append`).

What a tick can do is said once, in `Ticked`.  Nothing is assumed of the
channel: it may refuse a span, or fail after having taken a part of it.

Main statement: `Backed.tick`.
-/
import PinBridge.Proofs.Queue.Content
import PinBridge.Transmitter

namespace PinBridge

/-- How many of the accepted bytes are written: those confirmed, and those on their way. -/
def Transmitter.passed (t : Transmitter) : Nat := t.confirmed + t.inFlight

/-! ### Ticks -/

namespace Line

variable {C : Type} {l : Line C}

theorem confirm_inFlight : l.confirm.transmitter.inFlight = 0 := by
  unfold confirm
  split
  · rfl
  · show l.transmitter.inFlight = 0
    omega

theorem confirm_confirmed : l.confirm.transmitter.confirmed = l.transmitter.passed := by
  unfold confirm
  split
  · rfl
  · show l.transmitter.confirmed = l.transmitter.confirmed + l.transmitter.inFlight
    omega

/-- Confirming changes what is on its way, not how much is written. -/
theorem confirm_passed : l.confirm.transmitter.passed = l.transmitter.passed := by
  rw [Transmitter.passed, confirm_confirmed, confirm_inFlight, Nat.add_zero]

theorem confirm_content :
    l.confirm.queue.content = l.queue.content.drop l.transmitter.inFlight := by
  unfold confirm
  split
  · exact Queue.content_pull _ _
  · have hnone : l.transmitter.inFlight = 0 := by omega
    rw [hnone, List.drop_zero]

@[simp] theorem confirm_channel : l.confirm.channel = l.channel := by
  unfold confirm
  split <;> rfl

variable [Channel C]

/-- What a tick can do. -/
inductive Ticked (l : Line C) : EStateM.Result LinkError (Line C) Nat → Prop
  | waiting (hready : Channel.ready l.channel = false) : Ticked l (.ok 0 l)
  | idle (hready : Channel.ready l.channel = true) (hspan : l.confirm.queue.head = []) :
      Ticked l (.ok 0 l.confirm)
  | written {channel : C} (hready : Channel.ready l.channel = true)
      (hspan : l.confirm.queue.head ≠ [])
      (hwrite : Channel.write l.confirm.queue.head l.channel = .ok () channel) :
      Ticked l (.ok l.confirm.queue.head.length { l.confirm with
        channel
        transmitter := l.confirm.transmitter.launch l.confirm.queue.head.length })
  | failed {e : ChannelError} {channel : C} (hready : Channel.ready l.channel = true)
      (hspan : l.confirm.queue.head ≠ [])
      (hwrite : Channel.write l.confirm.queue.head l.channel = .error e channel) :
      Ticked l (.error (.channel e) { l.confirm with channel })

theorem ticked (l : Line C) : Ticked l (tick l) := by
  cases hready : Channel.ready l.channel with
  | false =>
    have htick : tick l = .ok 0 l := by simp [tick, hready]
    rw [htick]
    exact .waiting hready
  | true =>
    have htick : tick l = launch l.confirm := by simp [tick, hready]
    rw [htick]
    by_cases hspan : l.confirm.queue.head = []
    · have hlaunch : launch l.confirm = .ok 0 l.confirm := by simp [launch, hspan]
      rw [hlaunch]
      exact .idle hready hspan
    · cases hwrite : Channel.write l.confirm.queue.head l.channel with
      | ok _ channel =>
        have hlaunch : launch l.confirm = .ok l.confirm.queue.head.length { l.confirm with
            channel
            transmitter := l.confirm.transmitter.launch l.confirm.queue.head.length } := by
          simp [launch, hspan, hwrite]
        rw [hlaunch]
        exact .written hready hspan hwrite
      | error e channel =>
        have hlaunch : launch l.confirm = .error (.channel e) { l.confirm with channel } := by
          simp [launch, hspan, hwrite]
        rw [hlaunch]
        exact .failed hready hspan hwrite

/-- The line that a tick leaves behind, whether it fails or not. -/
def left : EStateM.Result LinkError (Line C) Nat → Line C
  | .ok _ l => l
  | .error _ l => l

end Line

/-! ### Traffic -/

/-- A line, and all bytes that its queue has accepted so far. -/
structure Traffic (C : Type) where
  line : Line C
  accepted : Bytes

namespace Traffic

variable {C : Type}

/-- An empty queue and a new transmitter before a channel. -/
def start (capacity : Nat) (channel : C) : Traffic C := ⟨⟨.new, .empty capacity, channel⟩, []⟩

/-- Offer a message to the queue, which accepts or refuses it. -/
def offer (header trailer : Bytes) (t : Traffic C) : Traffic C :=
  match t.line.queue.pushParts header trailer with
  | .ok queue => ⟨{ t.line with queue }, t.accepted ++ (header ++ trailer)⟩
  | .error _ => t

/-- Bytes go in behind the content. -/
def extend (bs : Bytes) (t : Traffic C) : Traffic C :=
  ⟨{ t.line with queue := t.line.queue.extend bs }, t.accepted ++ bs⟩

/-- A message that is offered goes in as a whole, or not at all. -/
theorem offer_cases (header trailer : Bytes) (t : Traffic C) :
    t.offer header trailer = t ∨ t.offer header trailer = t.extend (header ++ trailer) := by
  unfold offer
  rw [Queue.pushParts_eq]
  split
  next queue hpush =>
    split at hpush
    · cases hpush
    · cases hpush
      exact .inr rfl
  · exact .inl rfl

/-- A message that is offered is appended to what has been accepted, or nothing is. -/
theorem accepted_prefix_offer (header trailer : Bytes) (t : Traffic C) :
    t.accepted <+: (t.offer header trailer).accepted := by
  unfold offer
  split
  · exact List.prefix_append _ _
  · exact List.prefix_rfl

@[simp] theorem offer_channel (header trailer : Bytes) (t : Traffic C) :
    (t.offer header trailer).line.channel = t.line.channel := by
  unfold offer
  split <;> rfl

@[simp] theorem offer_transmitter (header trailer : Bytes) (t : Traffic C) :
    (t.offer header trailer).line.transmitter = t.line.transmitter := by
  unfold offer
  split <;> rfl

/-- Something happens to the channel. -/
def onChannel (f : C → C) (t : Traffic C) : Traffic C :=
  { t with line := { t.line with channel := f t.line.channel } }

/-- The line ticks, and may fail. -/
def tick [Channel C] (t : Traffic C) : Traffic C := { t with line := Line.left (Line.tick t.line) }

end Traffic

/-! ### The invariant -/

/-- The queue holds what has been accepted without what has been confirmed. -/
structure Backed {C : Type} (t : Traffic C) : Prop where
  content : t.line.queue.content = t.accepted.drop t.line.transmitter.confirmed
  passed_le : t.line.transmitter.passed ≤ t.accepted.length

namespace Backed

variable {C : Type} {t : Traffic C}

theorem start (capacity : Nat) (channel : C) : Backed (.start capacity channel) :=
  ⟨rfl, Nat.le_refl 0⟩

theorem extend (h : Backed t) (bs : Bytes) : Backed (t.extend bs) := by
  have hle : t.line.transmitter.confirmed ≤ t.accepted.length :=
    Nat.le_trans (Nat.le_add_right _ _) h.passed_le
  refine ⟨?_, ?_⟩
  · show t.line.queue.content ++ bs = (t.accepted ++ bs).drop t.line.transmitter.confirmed
    rw [h.content, List.drop_append_of_le_length hle]
  · show t.line.transmitter.passed ≤ (t.accepted ++ bs).length
    rw [List.length_append]
    exact Nat.le_add_right_of_le h.passed_le

theorem offer (h : Backed t) (header trailer : Bytes) : Backed (t.offer header trailer) := by
  rcases t.offer_cases header trailer with hoffer | hoffer
  · rw [hoffer]
    exact h
  · rw [hoffer]
    exact h.extend _

theorem onChannel (h : Backed t) (f : C → C) : Backed (t.onChannel f) := ⟨h.content, h.passed_le⟩

/-- Bytes that are confirmed leave the queue. -/
theorem confirm (h : Backed t) : Backed { t with line := t.line.confirm } := by
  refine ⟨?_, ?_⟩
  · show t.line.confirm.queue.content = t.accepted.drop t.line.confirm.transmitter.confirmed
    rw [Line.confirm_content, Line.confirm_confirmed, h.content, List.drop_drop]
    rfl
  · show t.line.confirm.transmitter.passed ≤ t.accepted.length
    rw [Line.confirm_passed]
    exact h.passed_le

/-- The front of the queue is what comes next after the confirmed bytes. -/
theorem take_append (h : Backed t) {span : Bytes} (hspan : span <+: t.line.queue.content) :
    t.accepted.take t.line.transmitter.confirmed ++ span
      = t.accepted.take (t.line.transmitter.confirmed + span.length) := by
  rw [List.take_add, ← h.content, ← List.prefix_iff_eq_take.1 hspan]

/-- What is at the front of the queue has been accepted. -/
theorem add_length_le (h : Backed t) {span : Bytes} (hspan : span <+: t.line.queue.content) :
    t.line.transmitter.confirmed + span.length ≤ t.accepted.length := by
  have hconfirmed : t.line.transmitter.confirmed ≤ t.accepted.length :=
    Nat.le_trans (Nat.le_add_right _ _) h.passed_le
  have hspan := hspan.length_le
  rw [h.content, List.length_drop] at hspan
  omega

/-- **Whatever the channel does, after a tick the queue still holds what is not confirmed.** -/
theorem tick [Channel C] (h : Backed t) : Backed t.tick := by
  have hticked := Line.ticked t.line
  show Backed { t with line := Line.left (Line.tick t.line) }
  generalize Line.tick t.line = result at hticked ⊢
  cases hticked with
  | waiting hready => exact h
  | idle hready hspan => exact h.confirm
  | written hready hspan hwrite =>
    -- the span stays in the queue until it is confirmed
    exact ⟨h.confirm.content, h.confirm.add_length_le (Queue.head_prefix _)⟩
  | failed hready hspan hwrite => exact ⟨h.confirm.content, h.confirm.passed_le⟩

end Backed

end PinBridge
