import ClusterNet.Cluster.Stack
import ClusterNet.Consensus.Directory
import ClusterNet.Consensus.Peer
import ClusterNet.Daemon.CommandLine
import ClusterNet.Daemon.Setup

/-!
# A daemon that runs

A daemon starts a node that hosts no group, serves the verbs of consensus and, if told to, a
directory, until it is interrupted. What happens is noted line by line.
-/

namespace ClusterNet.Daemon

open Consensus Messaging

/-- What is noted. -/
inductive Line where
  | starting (clusterId : String)
  | member (m : Member)
  | serving (path : String) (reader : Int64)
  | interrupted
  | stopped

def Line.text : Line → String
  | .starting clusterId => s!"raftlink daemon starting cluster_id={clusterId}"
  | .member m => s!"member member_id={m.id.text} address={m.address.text}"
  | .serving path reader => s!"serving directory path={path} reader_id={reader.toInt}"
  | .interrupted => "shutdown signal received"
  | .stopped => "raftlink daemon stopped"

/-- What a daemon makes up for itself. -/
structure Fresh where
  member : MemberId
  reader : Int64
  clock : UInt64

structure Session where
  stack : Cluster.Stack
  peer : Peer Storage

namespace Session

/-- Serves the verbs of consensus on a node. -/
def serve (peer : Peer Storage) (stack : Cluster.Stack) : Session :=
  let routes := stack.host.routes.insertAll
    (Verb.all.map fun v => (v.subject, .handler (peer.handler v)))
  ⟨{ stack with host := { stack.host with routes } }, peer⟩

/-- The files that a node serves. -/
def files (fresh : Fresh) : Option String → FileService Storage × List Line
  | some path =>
    let (id, files) := (FileService.ofInitialId fresh.reader).add (directoryReader path [])
    (files, [.serving path id])
  | none => (.ofInitialId fresh.reader, [])

/-- Starts a daemon. -/
def start (c : Config) (served : Option String) (storage : Storage) (fresh : Fresh)
    (ports : Ports) : Except Fault Session × List Line :=
  let first := Line.starting c.clusterId
  match Cluster.Stack.ofConfig c fresh.member fresh.clock with
  | .error f => (.error (.unstarted f), [first])
  | .ok stack =>
    match stack.start 0 ports with
    | (.error f, _) => (.error (.unstarted f), [first])
    | (.ok _, stack, _) =>
      let (files, more) := files fresh served
      (.ok (serve (.start .noGroup files storage) stack),
        first :: stack.members.map Line.member ++ more)

/-- Stops a daemon that was interrupted. -/
def stop (s : Session) : Session × List Line :=
  let stack := { s.stack with
    host := { s.stack.host with
      routes := (Verb.all.map Verb.subject).foldl Table.erase s.stack.host.routes } }
  (⟨stack.stop, s.peer.close⟩, [.interrupted, .stopped])

end Session

/-- What a daemon leaves behind. -/
structure Outcome where
  code : UInt32
  output : List String
  errors : List String

namespace Outcome

def success (output : List String) : Outcome := ⟨0, output, []⟩

def failure (f : Fault) (output : List String) : Outcome := ⟨1, output, f.lines⟩

/-- Nothing was done, because the command line means nothing. -/
def misused : Outcome := ⟨2, [], ["error: see --help"]⟩

end Outcome

/-- Checks a configuration. -/
def checkConfig (path : String) (content : Option Bytes) : Outcome :=
  match load path content with
  | .ok c => .success (members c)
  | .error f => .failure f []

/-- Starts a daemon from a file. -/
def run (path : String) (content : Option Bytes) (served : Option String) (fresh : Fresh) :
    Except Fault Session × List Line :=
  match load path content with
  | .error f => (.error f, [])
  | .ok c => Session.start c served (.empty 0) fresh .start

/-- Runs a daemon that is interrupted as soon as it serves. -/
def runOnce (path : String) (content : Option Bytes) (served : Option String) (fresh : Fresh) :
    Outcome :=
  match run path content served fresh with
  | (.error f, log) => .failure f (log.map Line.text)
  | (.ok s, log) => .success ((log ++ s.stop.2).map Line.text)

/-- Does what a command line means, with files that are read by their paths. -/
def execute (read : String → Option Bytes) (fresh : Fresh) : Intent → Outcome
  | .command (.run path served) => runOnce path (read path) served fresh
  | .command (.checkConfig path) => checkConfig path (read path)
  | .help t => .success t.lines
  | .none => .misused

end ClusterNet.Daemon
