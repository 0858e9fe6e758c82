import ClusterNet.Json.Plain
import ClusterNet.Json.Record
import ClusterNet.PubSub.Topics
import ClusterNet.Text.Utf8

/-!
# Subscribers on the bench

Subscribers that a script names by their kinds. Some take texts, and some take JSON.
-/

namespace ClusterNet.Bench

open Messaging PubSub

/-- A text up to the first separator, and what comes after it. -/
def cut (s : String) (c : Char) : String × String :=
  let l := s.toList
  (String.ofList (l.takeWhile (· != c)), String.ofList ((l.dropWhile (· != c)).drop 1))

namespace Subscriber

def decodeText (b : Bytes) : Except String String :=
  match Utf8.fault? b with
  | some f => .error f.message
  | none => .ok (Utf8.lossy b)

def decodeJson {A : Type} (read? : Bytes → Option A) (b : Bytes) : Except String A :=
  match read? b with
  | some a => .ok a
  | none => .error "no such JSON"

/-- Takes texts. -/
def ofText (label : String) (ms : Nat) (work : String → Effort) : Subscriber :=
  .ofStages label decodeText id ms work

def answer (text : String) : Effort := .returned (Bytes.ofText text)

/-- How long a subscriber works that takes some time. -/
def someTime : Nat := 5

/-- Takes a list of numbers and answers with their sum. -/
def sums (label : String) : Subscriber :=
  .ofStages label (decodeJson Json.Form.ofBytes?)
    (fun (ns : List UInt32) => "[" ++ ", ".intercalate (ns.map toString) ++ "]") 0
    fun ns => answer (toString (ns.foldl (fun sum n => sum + n.toNat) 0))

/-- Takes any value and answers with an object around it. -/
def wraps (label key : String) : Subscriber :=
  .ofStages label (decodeJson Json.Value.ofBytes?) Json.Value.text 0
    fun v => .returned (Json.Value.record [(key, v)]).bytes

def ofKind (label kind : String) : Subscriber :=
  let (shape, arg) := cut kind ':'
  match shape with
  | "sync" => ofText label 0 fun m => answer (arg ++ m)
  | "async" => ofText label someTime fun m => answer (arg ++ m)
  | "slow" => ofText label (arg.toNat?.getD 0) answer
  | "json_sum" => sums label
  | "json_wrap" => wraps label arg
  | "panic" => ofText label 0 fun _ => .failed "task panicked"
  | "bad_encoder" => ofText label 0 fun _ => .failed arg
  | "bad_decoder" => .ofStages label (fun _ => .error arg) id 0 answer
  | _ => ofText label 0 fun _ => .returned []

end Subscriber

end ClusterNet.Bench
