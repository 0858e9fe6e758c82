import ClusterNet.Address
import ClusterNet.Bytes

/-!
# Outgoing messages

What somebody wants to have sent, and where to.
-/

namespace ClusterNet.Messaging

structure Outgoing where
  goal : Address
  subject : String
  payload : Bytes
  deriving DecidableEq, Repr

end ClusterNet.Messaging
