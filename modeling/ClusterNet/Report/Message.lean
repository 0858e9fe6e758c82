import ClusterNet.Cluster.Failure
import ClusterNet.Messaging.Server
import ClusterNet.Report.Member

/-!
# Reports on messages and failures
-/

namespace ClusterNet.Report

open Json (Value)
open Wire

instance : Report FrameFault where
  report f :=
    let kind := match f with
      | .insufficient .. => "InsufficientData"
      | .tooLarge .. => "FrameTooLarge"
      | .unknownType _ => "UnknownMessageType"
      | .unknownStatus _ => "UnknownStatus"
      | .unresolved _ => "UnresolvedAddress"
      | .subjectTooLong _ => "FieldTooLong"
      | .malformed _ => "Malformed"
    failure kind (some f.message)

/-- What kind of failure it is. -/
def failureKind : Messaging.Failure → String
  | .connect .. => "Connect"
  | .io => "Io"
  | .codec _ => "Codec"
  | .handshake _ => "Handshake"
  | .timeout .. => "Timeout"
  | .noRemoteHandler _ => "NoRemoteHandler"
  | .remoteHandler .. => "RemoteHandlerFailure"
  | .protocol _ => "Protocol"
  | .connectionClosed => "ConnectionClosed"
  | .notRunning => "NotRunning"
  | .shutdown => "Shutdown"

instance : Report Messaging.Failure where
  report f := failure (failureKind f) (if f = .io then none else some f.message)

instance : Report Cluster.Failure where
  report f := match f with
    | .messaging f => report f
    | .config f => configFlaw f
    | .serialization => failure "Serialization" none
    | .discovery _ => failure "Discovery" (some f.message)
    | .noSubscribers _ => failure "NoSubscribers" (some f.message)
    | .unknownMember _ => failure "UnknownMember" (some f.message)
    | .notRunning _ => failure "NotRunning" (some f.message)
    | .stopped => failure "Stopped" (some f.message)

/-- What a message comes to. -/
instance {E : Type} [Report E] : Report (Except E Bytes) where
  report
    | .ok b => .record [field "ok" b]
    | .error e => report e

instance : Report (Except Messaging.Failure Unit) where
  report
    | .ok _ => .record [field "ok" ""]
    | .error e => report e

instance : Report Cluster.Done where
  report
    | .ok _ => .string "ok"
    | .error e => report e

instance : Report Status where
  report
    | .ok => .string "Ok"
    | .noHandler => .string "ErrorNoHandler"
    | .handlerFailed => .string "ErrorHandlerException"
    | .protocol => .string "ProtocolError"
    | .noRemoteHandler => .string "ErrorNoRemoteHandler"

instance : Report Version := ⟨fun v => report v.number⟩

instance : Report Message where
  report
    | .request r => .record [field "type" "request", field "id" r.id, field "sender" r.sender.text,
        field "subject" (Bytes.ofText r.subject), field "payload" r.payload]
    | .reply r => .record [field "type" "reply", field "id" r.id, field "status" r.status.code,
        field "payload" r.payload]

/-- What is to be seen of handlers: the messages that were consumed, the requests that nobody
answers, and the replies that handlers gave on their own. -/
def event? : Messaging.Event → Option Value
  | .invoked label r =>
    if label = "consume" then
      some (.array [report r.subject, report r.sender.text, report r.payload])
    else if label = "silent" then some (.array [report label, report r.id])
    else none
  | .replied s o => some (.array [report "reply", report s.code, report o])

end ClusterNet.Report
