/-
PinBridge/LinkError.lean

What can go wrong between a message and the channel, whatever the message asks.
-/
import PinBridge.Receiver.Basic
import PinBridge.Queue
import PinBridge.Channel.Basic

namespace PinBridge

/-- A failure of receiving, encoding, queueing or writing. -/
inductive LinkError where
  | stream (e : StreamError)
  | queue (e : QueueFull)
  | trailer (e : TrailerError)
  | channel (e : ChannelError)
  deriving DecidableEq, Repr

namespace LinkError

def message : LinkError → String
  | .stream e => e.message
  | .queue e => e.message
  | .trailer e => e.message
  | .channel e => "transport error: " ++ e.message

end LinkError
end PinBridge
