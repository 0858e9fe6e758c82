import ClusterNet.Daemon.Session

/-!
# The daemon

A daemon that runs goes on until its input ends.
-/

namespace ClusterNet

open Daemon

/-- The content of a file, if it can be read. -/
def readContent (path : String) : IO (Option Bytes) := do
  try
    let b ← IO.FS.readBinFile path
    return some b.toList
  catch _ => return none

def printLines (s : IO.FS.Stream) (lines : List String) : IO Unit := lines.forM s.putStrLn

/-- What the daemon makes up for itself. -/
def makeUp : IO Fresh := do
  let id ← IO.rand 0 1000000000000
  let ms ← IO.monoMsNow
  return ⟨⟨toString id⟩, Int64.ofNat id, ms.toUInt64⟩

partial def drain (s : IO.FS.Stream) : IO Unit := do
  unless (← s.getLine).isEmpty do drain s

/-- Reports how it has ended. -/
def conclude (o : Outcome) : IO UInt32 := do
  printLines (← IO.getStdout) o.output
  printLines (← IO.getStderr) o.errors
  return o.code

def runUntilEnd (path : String) (served : Option String) : IO UInt32 := do
  let (r, log) := run path (← readContent path) served (← makeUp)
  printLines (← IO.getStdout) (log.map Line.text)
  match r with
  | .error f => conclude (.failure f [])
  | .ok s =>
    drain (← IO.getStdin)
    conclude (.success (s.stop.2.map Line.text))

end ClusterNet

open ClusterNet Daemon in
def main (args : List String) : IO UInt32 := do
  match CommandLine.read args with
  | .command (.run path served) => runUntilEnd path served
  | .command (.checkConfig path) => conclude (checkConfig path (← readContent path))
  | .help t => conclude (.success t.lines)
  | .none => conclude .misused
