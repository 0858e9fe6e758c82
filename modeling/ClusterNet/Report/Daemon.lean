import ClusterNet.Daemon.Session
import ClusterNet.Report.Basic

/-!
# Reports on daemons

What the host says is left out, and what a daemon has made up is not shown.
-/

namespace ClusterNet.Report

open Daemon
open Json (Value)

/-- The lines that tell why a daemon gives up. -/
def faultLine? (line : String) : Option String :=
  let plain := String.ofList (Text.trimChars line.toList)
  if "Error: ".isPrefixOf line then some line
  else if "invalid config: ".isPrefixOf plain then some plain
  else none

/-- Lines as they are read back. One that has a line break in it is more than one then. -/
def readBack (lines : List String) : List String :=
  lines.flatMap fun line => (line.splitOn "\n").map fun l =>
    if l.endsWith "\r" then String.ofList l.toList.dropLast else l

/-- What a daemon leaves behind, with or without its output. -/
def outcome (withOutput : Bool) (o : Outcome) : Value :=
  .record ([field "code" o.code, field "stderr" ((readBack o.errors).filterMap faultLine?)] ++
    if withOutput then [field "stdout" (readBack o.output)] else [])

/-- A line that a daemon has noted. Where the daemon listens is not shown. -/
def noted (bound : Address) : Line → String
  | .serving _ _ => "serving directory path=<serve> reader_id=<reader>"
  | l => l.text.replace bound.text "<address>"

/-- A daemon that is interrupted when it is ready. -/
def session (r : Except Fault Session × List Line) : Value :=
  let (ready, bound, lines) := match r with
    | (.ok s, lines) => (true, s.stack.messaging.address, lines ++ s.stop.2)
    | (.error _, lines) => (false, default, lines)
  .record [field "code" (if ready then 0 else 1), field "ready" ready,
    field "log" ((lines.map (noted bound)).mergeSort), field "replies" ([] : List Value)]

end ClusterNet.Report
