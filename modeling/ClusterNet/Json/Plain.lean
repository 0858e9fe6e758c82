import ClusterNet.Json.Reader

/-!
# Plain values

A value is plain when all its strings denote texts, and the members of its objects stand in
the order of their keys. Where a key occurs more than once, the last one counts.
-/

namespace ClusterNet.Json.Value

/-- Puts a member where it belongs, unless there is one with its key. -/
def putMember (k : String) (v : Value) : List (String × Value) → List (String × Value)
  | [] => [(k, v)]
  | (l, w) :: rest =>
    if k < l then (k, v) :: (l, w) :: rest
    else if k = l then (l, w) :: rest
    else (l, w) :: putMember k v rest

mutual

def plain? : Value → Option Value
  | .garbled => none
  | .array vs => (plainItems? vs).map .array
  | .object ms => (plainMembers? ms).map .record
  | v => some v

def plainItems? : List Value → Option (List Value)
  | [] => some []
  | v :: vs => do some ((← plain? v) :: (← plainItems? vs))

def plainMembers? : List (Option String × Value) → Option (List (String × Value))
  | [] => some []
  | (none, _) :: _ => none
  | (some k, v) :: ms => do
    let v ← plain? v
    some (putMember k v (← plainMembers? ms))

end

/-- The plain value that a document holds. -/
def ofBytes? (b : Bytes) : Option Value := (parse? b).bind plain?

end ClusterNet.Json.Value
