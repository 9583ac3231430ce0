/-
PinBridge/Proofs/Channel/Tapped.lean

A channel with a record of what it is offered.

Every span that is written is recorded, together with the reason if it was
refused.  The record does not interfere: without it the channel is the one it
was (`write_untapped`), and so is a line before it.

Main statement: `tick_untapped`.
-/
import PinBridge.Proofs.Line.Backed
import PinBridge.Proofs.Receiver.Handled

namespace PinBridge

/-- A span that a channel was offered. -/
structure Offer where
  span : Bytes
  refusal : Option ChannelError
  deriving DecidableEq, Repr

/-- A channel and all spans it was offered, first one first. -/
structure Tapped (C : Type) where
  channel : C
  offers : List Offer

namespace Tapped

variable {C : Type}

/-- The spans that were accepted, first one first. -/
def accepted (t : Tapped C) : List Bytes :=
  (t.offers.filter fun offer => offer.refusal.isNone).map Offer.span

/-- A further offer, and what it makes of the channel. -/
def note (span : Bytes) (refusal : Option ChannelError) (t : Tapped C) (channel : C) : Tapped C :=
  ⟨channel, t.offers ++ [⟨span, refusal⟩]⟩

@[simp] theorem accepted_note_none (span : Bytes) (t : Tapped C) (channel : C) :
    (t.note span none channel).accepted = t.accepted ++ [span] := by
  simp [accepted, note]

variable [Channel C]

instance : Channel (Tapped C) where
  ready t := Channel.ready t.channel
  write span := fun t =>
    match Channel.write span t.channel with
    | .ok () channel => .ok () (t.note span none channel)
    | .error e channel => .error e (t.note span (some e) channel)

theorem write_tapped (span : Bytes) (t : Tapped C) :
    Channel.write span t =
      match Channel.write span t.channel with
      | .ok () channel => .ok () (t.note span none channel)
      | .error e channel => .error e (t.note span (some e) channel) := rfl

theorem write_untapped (span : Bytes) (t : Tapped C) :
    Channel.write span t.channel = mapState channel (Channel.write span t) := by
  rw [write_tapped]
  cases Channel.write span t.channel <;> rfl

end Tapped

namespace Line

variable {C : Type}

/-- The same line without the record. -/
def untapped (l : Line (Tapped C)) : Line C := ⟨l.transmitter, l.queue, l.channel.channel⟩

theorem confirm_untapped (l : Line (Tapped C)) : l.untapped.confirm = l.confirm.untapped := by
  unfold confirm
  show (if 0 < l.transmitter.inFlight then _ else _) = _
  split <;> rfl

variable [Channel C]

theorem launch_untapped (l : Line (Tapped C)) :
    launch l.untapped = mapState untapped (launch l) := by
  have hhead : l.untapped.queue = l.queue := rfl
  have hchannel : l.untapped.channel = l.channel.channel := rfl
  unfold launch
  simp only [hhead, hchannel, Tapped.write_untapped]
  split
  · rfl
  · cases Channel.write l.queue.head l.channel <;> rfl

/-- **A line does before a tapped channel what it does before the channel.** -/
theorem tick_untapped (l : Line (Tapped C)) : tick l.untapped = mapState untapped (tick l) := by
  unfold tick
  show (if Channel.ready l.channel.channel then launch l.untapped.confirm else .ok 0 l.untapped)
    = mapState untapped (if Channel.ready l.channel.channel then launch l.confirm else .ok 0 l)
  split
  · rw [confirm_untapped, launch_untapped]
  · rfl

end Line
end PinBridge
