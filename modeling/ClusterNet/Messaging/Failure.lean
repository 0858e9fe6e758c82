import ClusterNet.Wire.Frame
import ClusterNet.Wire.Handshake

/-!
# How messages fail

What can go wrong with a message, and the texts for it. A reply whose status is not `ok`
makes the request fail.
-/

namespace ClusterNet.Messaging

/-- Why a connection cannot be made. -/
inductive ConnectReason where
  | refused
  | unreachable
  | unresolved
  /-- So many connections were made, and each was closed by the time it was looked at. -/
  | closedAtOnce (times : Nat)
  | other
  deriving DecidableEq, Repr

def ConnectReason.message : ConnectReason → String
  | .refused => "refused"
  | .unreachable => "unreachable"
  | .unresolved => "unresolved"
  | .closedAtOnce times => s!"connection closed immediately {times} times"
  | .other => "failed"

inductive Failure where
  | connect (address : Address) (reason : ConnectReason)
  | io
  | codec (fault : Wire.FrameFault)
  | handshake (fault : Wire.HandshakeFault)
  | timeout (subject : String) (ms : Nat)
  | noRemoteHandler (subject : String)
  | remoteHandler (subject : String) (text : String)
  | protocol (text : String)
  | connectionClosed
  | notRunning
  | shutdown
  deriving DecidableEq, Repr

namespace Failure

def message : Failure → String
  | .connect address reason => s!"failed to connect to {address.text}: {reason.message}"
  | .io => "I/O error"
  | .codec fault => s!"codec error: {fault.message}"
  | .handshake fault => s!"handshake failed: {fault.message}"
  | .timeout subject ms => s!"request '{subject}' timed out after {ms}ms"
  | .noRemoteHandler subject => s!"no remote handler registered for '{subject}'"
  | .remoteHandler subject text => s!"remote handler for '{subject}' failed: {text}"
  | .protocol text => s!"protocol error: {text}"
  | .connectionClosed => "connection closed"
  | .notRunning => "messaging service is not running"
  | .shutdown => "messaging service has been shut down"

end Failure

/-- What a message comes to: the payload of a reply, or nothing for one that expects none. -/
abbrev Outcome := Except Failure Bytes

/-- What a reply means for the one who sent the request. -/
def outcomeOf (subject : String) (r : Wire.Reply) : Outcome :=
  match r.status with
  | .ok => .ok r.payload
  | .noHandler => .error (.noRemoteHandler subject)
  | .noRemoteHandler => .error (.noRemoteHandler subject)
  | .handlerFailed => .error (.remoteHandler subject (Utf8.lossy r.payload))
  | .protocol => .error (.protocol s!"remote reported a protocol error for '{subject}'")

end ClusterNet.Messaging
