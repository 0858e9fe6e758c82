import ClusterNet.Base64
import ClusterNet.Json.Reader

/-!
# Types with a JSON form

A record is an object, or an array of its fields in order. An object may have members that
the record does not know, but none that it knows twice. Which fields may be missing, and
what they are then, is up to each record.
-/

namespace ClusterNet.Json

/-- A type with a JSON form. Reading may accept more than writing produces. -/
class Form (α : Type) where
  write : α → Value
  read? : Value → Option α

namespace Form

variable {α : Type} [Form α]

def text (a : α) : String := (write a).text

def bytes (a : α) : Bytes := (write a).bytes

def ofBytes? (b : Bytes) : Option α := (parse? b).bind read?

end Form

open Form

/-! ## Plain values -/

instance : Form Bool where
  write := .bool
  read?
    | .bool b => some b
    | _ => none

instance : Form String where
  write := .string
  read?
    | .string s => some s
    | _ => none

instance : Form UInt64 where
  write n := .int n.toNat
  read?
    | .int n => if 0 ≤ n ∧ n < UInt64.size then some n.toNat.toUInt64 else none
    | _ => none

instance : Form UInt32 where
  write n := .int n.toNat
  read?
    | .int n => if 0 ≤ n ∧ n < UInt32.size then some n.toNat.toUInt32 else none
    | _ => none

instance : Form Int64 where
  write n := .int n.toInt
  read?
    | .int n =>
      if -9223372036854775808 ≤ n ∧ n ≤ 9223372036854775807 then some (Int64.ofInt n) else none
    | _ => none

instance : Form Int32 where
  write n := .int n.toInt
  read?
    | .int n => if -2147483648 ≤ n ∧ n ≤ 2147483647 then some (Int32.ofInt n) else none
    | _ => none

instance {α : Type} [Form α] : Form (List α) where
  write as := .array (as.map write)
  read?
    | .array vs => vs.mapM read?
    | _ => none

instance {α : Type} [Form α] : Form (Option α) where
  write
    | some a => write a
    | none => .null
  read?
    | .null => some none
    | v => (read? v).map some

/-- Bytes are carried in base 64. -/
abbrev base64Form : Form Bytes where
  write b := .string (Base64.encode b)
  read?
    | .string s => Base64.decode? s
    | _ => none

/-! ## Records -/

/-- The value of each name, if the members say it at most once. -/
def ofMembers (names : List String) (ms : List (Option String × Value)) :
    Option (List (Option Value)) :=
  if ms.all (fun m => m.1.isSome) &&
      names.all (fun n => (ms.filter fun m => m.1 == some n).length ≤ 1) then
    some (names.map fun n => (ms.find? fun m => m.1 == some n).map (·.2))
  else none

/-- The fields of a record by position. Fields may be missing at the end. -/
def ofItems (names : List String) (vs : List Value) : Option (List (Option Value)) :=
  if vs.length ≤ names.length then
    some (vs.map some ++ List.replicate (names.length - vs.length) none)
  else none

/-- The fields of a record, in the order of their names. -/
def fields (names : List String) : Value → Option (List (Option Value))
  | .object ms => ofMembers names ms
  | .array vs => ofItems names vs
  | _ => none

/-- A field that must be there. -/
def required {α : Type} [Form α] (v : Option Value) : Option α := v.bind read?

/-- A field that has a value of its own when it is missing. -/
def orElse {α : Type} [Form α] (default : α) : Option Value → Option α
  | some v => read? v
  | none => some default

/-- A member that is left out when there is nothing to say. -/
def member? {α : Type} [Form α] (name : String) : Option α → List (String × Value)
  | some a => [(name, write a)]
  | none => []

/-- One name of a choice: a string, or an object whose only member is the name with null. -/
def choice? : Value → Option String
  | .string s => some s
  | .object [(some s, .null)] => some s
  | _ => none

/-- A value with some of its fields set. -/
def withFields? {α : Type} [Form α] (a : α) (fs : List (String × Value)) : Option α :=
  match write a with
  | .object ms =>
    read? (.object ((ms.filter fun m => fs.all fun f => m.1 != some f.1) ++
      fs.map fun f => (some f.1, f.2)))
  | _ => none

/-- The printed text of what is read, whether it is the default value, and whether reading the
text gives it again. -/
def reprint (α : Type) [Form α] [BEq α] (default : α) (b : Bytes) :
    Option (String × Bool × Bool) := do
  let a : α ← ofBytes? b
  some (text a, a == default, (ofBytes? (bytes a) : Option α) == some a)

end ClusterNet.Json
