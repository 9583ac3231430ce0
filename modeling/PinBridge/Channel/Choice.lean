/-
PinBridge/Channel/Choice.lean

Two kinds of channel side by side are a kind of channel.
-/
import PinBridge.Channel.Basic

namespace PinBridge

/-- Each of the two does what it does. -/
instance {A B : Type} [Channel A] [Channel B] : Channel (A ⊕ B) where
  ready
    | .inl a => Channel.ready a
    | .inr b => Channel.ready b
  write data
    | .inl a =>
      match Channel.write data a with
      | .ok () a => .ok () (.inl a)
      | .error e a => .error e (.inl a)
    | .inr b =>
      match Channel.write data b with
      | .ok () b => .ok () (.inr b)
      | .error e b => .error e (.inr b)

end PinBridge
