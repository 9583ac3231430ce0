/-
PinBridge/Outbox.lean

Putting messages for the host on the queue, whole or not at all.

A message that cannot be encoded is refused before the queue is looked at.
-/
import PinBridge.LinkError

namespace PinBridge
namespace Queue

/-- Queue a message. -/
def send (r : Report) (q : Queue) : Except LinkError Queue :=
  match r.layout.header with
  | .error e => .error (.trailer e)
  | .ok header => (q.pushParts header r.layout.trailer).mapError .queue

/-- Queue bytes as they are. -/
def sendBytes (wire : Bytes) (q : Queue) : Except LinkError Queue :=
  (q.push wire).mapError .queue

/-- Tell the level of a digital input. -/
def sendLevel (pin : UInt8) (level : Bool) (q : Queue) : Except LinkError Queue :=
  q.send (.digitalInStatus pin level)

/-- Tell how much a UART has still to send. -/
def sendBacklog (uart : UInt8) (remaining : UInt16) (q : Queue) : Except LinkError Queue :=
  q.send (.uartTxStatus uart remaining)

end Queue
end PinBridge
