import ClusterNet.Address
import ClusterNet.Json.Record

/-!
# Addresses in JSON

An address is a string, and is written in its display form.
-/

namespace ClusterNet.Json

instance : Form Address where
  write a := .string a.text
  read?
    | .string s => (Address.parse s).toOption
    | _ => none

/-- A document that is a string, but no address. -/
def isNoAddress (b : Bytes) : Bool :=
  match parse? b with
  | some (.string s) => (Address.parse s).toOption.isNone
  | _ => false

end ClusterNet.Json
