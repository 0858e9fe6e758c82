import ClusterNet.Messaging.Channel.Stream
import ClusterNet.Messaging.Client
import ClusterNet.Messaging.Server

/-!
# Links

A client and a server, each at its end of a stream, and the two joined by one stream. Every
part moves by itself, and a move that is not possible now gives `none`. What a run comes to
may depend on the order of the moves, so laws about links speak of every order.
-/

namespace ClusterNet.Messaging

inductive ClientMove where
  /-- The reader of the channel moves, with at most so many bytes. -/
  | reads (n : Nat)
  | notices
  | writes (n : Nat)
  | receives
  | proceeds (k : CallKey)
  deriving DecidableEq, Repr

inductive ServerMove where
  | reads (n : Nat)
  | notices
  | writes (n : Nat)
  | serves
  | works (k : JobKey)
  deriving DecidableEq, Repr

/-- A client with the pipe it writes to and the pipe it reads from. -/
structure ClientEnd where
  client : Client
  out : Pipe
  into : Pipe

namespace ClientEnd

/-- A step of the channel. -/
def lift? (e : ClientEnd) (f : Station → Option Station) : Option ClientEnd :=
  (f ⟨e.client.channel, e.out, e.into, .none⟩).map fun s =>
    ⟨{ e.client with channel := s.channel }, s.out, s.into⟩

def move? (e : ClientEnd) (now : Nat) : ClientMove → Option ClientEnd
  | .reads n => e.lift? fun s => s.read? n
  | .notices => e.lift? Station.notice?
  | .writes n => e.lift? fun s => s.write? n
  | .receives => (e.client.receive?).map fun client => { e with client }
  | .proceeds k => (e.client.proceed? k now).map fun client => { e with client }

end ClientEnd

/-- A server with the pipe it writes to and the pipe it reads from. -/
structure ServerEnd where
  server : Server
  out : Pipe
  into : Pipe

namespace ServerEnd

/-- A step of the channel. -/
def lift? (e : ServerEnd) (f : Station → Option Station) : Option ServerEnd :=
  (f ⟨e.server.channel, e.out, e.into, .none⟩).map fun s =>
    ⟨{ e.server with channel := s.channel }, s.out, s.into⟩

def move? (e : ServerEnd) (handlers : Handlers) (now : Nat) : ServerMove → Option ServerEnd
  | .reads n => e.lift? fun s => s.read? n
  | .notices => e.lift? Station.notice?
  | .writes n => e.lift? fun s => s.write? n
  | .serves => (e.server.serve? handlers now).map fun server => { e with server }
  | .works k => (e.server.work? k now).map fun server => { e with server }

end ServerEnd

inductive Move where
  | client (m : ClientMove)
  | server (m : ServerMove)
  deriving DecidableEq, Repr

/-- A client and a server joined by a stream. Requests go up, and replies come down. -/
structure Link where
  client : Client
  server : Server
  up : Pipe
  down : Pipe

namespace Link

def start (limit capacity room : Nat) : Link :=
  ⟨.ofChannel (.start limit capacity), .ofChannel (.start limit capacity), .ofCapacity room,
    .ofCapacity room⟩

def move? (l : Link) (handlers : Handlers) (now : Nat) : Move → Option Link
  | .client m => ((ClientEnd.mk l.client l.up l.down).move? now m).map fun e =>
      { l with client := e.client, up := e.out, down := e.into }
  | .server m => ((ServerEnd.mk l.server l.down l.up).move? handlers now m).map fun e =>
      { l with server := e.server, down := e.out, up := e.into }

end Link

end ClusterNet.Messaging
