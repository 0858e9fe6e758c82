import ClusterNet.Json.Record

/-!
# Refusals

A reply may carry a refusal: a code and a text. Codes that are not known are kept.
-/

namespace ClusterNet.Consensus

open Json

inductive ErrorCode where
  | badRequest
  | tryAgain
  | noEntry
  | failedIo
  deriving DecidableEq, Repr

namespace ErrorCode

def number : ErrorCode → Int32
  | .badRequest => 1000
  | .tryAgain => 1002
  | .noEntry => 1012
  | .failedIo => 1014

def ofNumber? (n : Int32) : Option ErrorCode :=
  if n = 1000 then some .badRequest
  else if n = 1002 then some .tryAgain
  else if n = 1012 then some .noEntry
  else if n = 1014 then some .failedIo
  else none

def name : ErrorCode → String
  | .badRequest => "EREQUEST"
  | .tryAgain => "EAGAIN"
  | .noEntry => "ENOENT"
  | .failedIo => "EIO"

end ErrorCode

structure Refusal where
  code : Int32
  text : String
  deriving DecidableEq, Repr

namespace Refusal

def ofCode (c : ErrorCode) (text : String) : Refusal := ⟨c.number, text⟩

def code? (r : Refusal) : Option ErrorCode := ErrorCode.ofNumber? r.code

instance : Form Refusal where
  write r := .record [("error_code", Form.write r.code), ("error_msg", Form.write r.text)]
  read? v := do
    let [code, text] ← fields ["error_code", "error_msg"] v | none
    some ⟨← required code, ← required text⟩

end Refusal

end ClusterNet.Consensus
