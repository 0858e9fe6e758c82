import ClusterNet.Bench.Subscriber
import ClusterNet.Consensus.Directory
import ClusterNet.Listeners.Named
import ClusterNet.Report.Basic

/-!
# Listeners and readers on the bench

Listeners that a script names by their kinds, with the name of another listener that they may be
about, and readers of files.
-/

namespace ClusterNet.Bench

open Posting in
/-- A listener first notes what it is told. -/
def Listener.ofKind (name kind other : String) : NamedListener :=
  let noting name (asked told : (e : Int) → NamedScript e.toNat) : NamedListener :=
    ⟨name, asked, fun e => .note (.told name e) (told e)⟩
  let always _ := .done true
  match kind with
  | "even" => noting name (fun e => .done (e % 2 == 0)) always
  | "never" => noting name (fun _ => .done false) always
  | "panic_relevant" => noting name (fun _ => .breakOff) always
  | "panic" => noting name always fun _ => .breakOff
  | "panic_odd" => noting name always fun e => if e % 2 = 0 then .done true else .breakOff
  | "remove" => noting name always fun _ => .removeNamed other fun
    | some found => .note (.removed name other found) (.done true)
    | none => .done true
  | "add" => noting name always fun _ => .addNamed (noting other always always) (.done true)
  | "repost" => noting name always fun e =>
    if h : 0 < e then .post (e - 1) (by omega) (.done true) else .done true
  | _ => noting name always always

/-- What listeners are seen to do. -/
def seen? : Posting.Note → Option Json.Value
  | .told n e => some (.array [report n, report e])
  | .removed n t found => some (.array [report n, report "removed", report t, report found])

open Consensus in
/-- A reader of a directory, or one that answers by a rule. -/
def Reader.ofKind (kind arg directory : String) : Reader Storage :=
  let scripted read : Reader Storage := ⟨"scripted/dir", read⟩
  match kind with
  | "busy" => scripted fun _ _ _ _ => .error (.notYet arg)
  | "broken" => scripted fun _ _ _ _ => .error .failed
  | "echo" => scripted fun _ n o c => .ok ⟨Bytes.ofText s!"{n}@{o}+{c}", false⟩
  | _ => directoryReader ("<dir>/" ++ directory) ((plainNames? directory).getD [])

end ClusterNet.Bench
