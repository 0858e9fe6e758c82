import ClusterNet.Address
import ClusterNet.Bytes

/-!
# Messages between nodes

A request names a subject, and a reply answers the request that has its id. The request
carries the address of its sender, whatever the connection says.
-/

namespace ClusterNet.Wire

inductive Status where
  | ok
  | noHandler
  | handlerFailed
  | protocol
  | noRemoteHandler
  deriving DecidableEq, Repr, Inhabited

namespace Status

def code : Status → UInt8
  | .ok => 0
  | .noHandler => 1
  | .handlerFailed => 2
  | .protocol => 3
  | .noRemoteHandler => 4

def ofCode? (c : UInt8) : Option Status :=
  [ok, noHandler, handlerFailed, protocol, noRemoteHandler].find? fun s => s.code == c

end Status

structure Request where
  id : UInt64
  sender : Address
  subject : String
  payload : Bytes
  deriving DecidableEq, Repr, Inhabited

structure Reply where
  id : UInt64
  status : Status
  payload : Bytes
  deriving DecidableEq, Repr, Inhabited

inductive Message where
  | request (r : Request)
  | reply (r : Reply)
  deriving DecidableEq, Repr, Inhabited

namespace Message

def id : Message → UInt64
  | .request r => r.id
  | .reply r => r.id

def payload : Message → Bytes
  | .request r => r.payload
  | .reply r => r.payload

end Message

end ClusterNet.Wire
