import ClusterNet.Checksum.Crc32c
import ClusterNet.Identifier
import ClusterNet.Json.Value
import ClusterNet.Table
import ClusterNet.TextSet

/-!
# Reports

A report is the JSON form in which a value is shown to someone who looks at a node. Reports are
for reading only. Bytes are shown in hexadecimal digits while they are few.
-/

namespace ClusterNet

open Json (Value)

/-- A type whose values can be shown. -/
class Report (A : Type) where
  report : A → Value

export Report (report)

namespace Report

variable {A : Type} [Report A]

/-- A member of an object. -/
def field (key : String) (a : A) : String × Value := (key, report a)

/-- Bytes up to this number are shown one by one. -/
def shownBytes : Nat := 512

def hex (b : Bytes) : String :=
  String.ofList (b.flatMap fun x => [Nat.digitChar (x.toNat / 16), Nat.digitChar (x.toNat % 16)])

instance : Report Value := ⟨id⟩

instance : Report Bool := ⟨.bool⟩

instance : Report Nat := ⟨fun n => .int n⟩

instance : Report Int := ⟨.int⟩

instance : Report String := ⟨.string⟩

instance : Report UInt8 := ⟨fun n => .int n.toNat⟩

instance : Report UInt16 := ⟨fun n => .int n.toNat⟩

instance : Report UInt32 := ⟨fun n => .int n.toNat⟩

instance : Report UInt64 := ⟨fun n => .int n.toNat⟩

instance : Report Int32 := ⟨fun n => .int n.toInt⟩

instance : Report Int64 := ⟨fun n => .int n.toInt⟩

instance : Report (Option A) := ⟨fun a => (a.map report).getD .null⟩

instance (priority := low) : Report (List A) := ⟨fun as => .array (as.map report)⟩

/-- Many bytes are shown by their number and their checksum. -/
instance : Report Bytes where
  report b :=
    if b.length ≤ shownBytes then .string (hex b)
    else .record [field "len" b.length, field "crc32c" (Crc32c.checksum b).toNat]

instance {named : Named} : Report (Identifier named) := ⟨fun i => .string i.text⟩

instance : Report (Table String String) :=
  ⟨fun t => .record (t.entries.map fun (k, v) => (k, .string v))⟩

instance : Report TextSet := ⟨fun t => report t.items⟩

instance : Report Ordering where
  report
    | .lt => .string "Less"
    | .eq => .string "Equal"
    | .gt => .string "Greater"

/-- What went wrong: its kind, and what there is to say about it. -/
def failure (kind : String) (text : Option String) : Value :=
  .record (("error", .string kind) :: (text.map fun s => ("message", Value.string s)).toList)

end Report

end ClusterNet
