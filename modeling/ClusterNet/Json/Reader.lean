import ClusterNet.Json.Token

/-!
# Reading JSON

Reading is a machine that takes one token at a time. Its stack holds the arrays and objects
that are still open, so documents may be as deep as they like.
-/

namespace ClusterNet.Json

/-- An array or object that is still open. What came before is in reverse order. -/
inductive Open where
  | array (before : List Value)
  | object (before : List (Option String × Value)) (key : Option String)

/-- What the machine expects. -/
inductive Mode where
  /-- A value. -/
  | value
  /-- A value or the end of an array that is still empty. The array comes onto the stack with
  its first value. -/
  | firstItem
  /-- A key or the end of an object that is still empty. -/
  | firstKey
  /-- A key of an object with earlier members. -/
  | key (before : List (Option String × Value))
  /-- A colon. -/
  | colon (before : List (Option String × Value)) (key : Option String)
  /-- Whatever may follow a finished value. -/
  | done (v : Value)

structure Machine where
  stack : List Open
  mode : Mode

namespace Machine

def start : Machine := ⟨[], .value⟩

/-- The token begins a value. -/
def beginValue (stack : List Open) : Token → Option Machine
  | .openBrace => some ⟨stack, .firstKey⟩
  | .openBracket => some ⟨stack, .firstItem⟩
  | .null => some ⟨stack, .done .null⟩
  | .bool b => some ⟨stack, .done (.bool b)⟩
  | .int n => some ⟨stack, .done (.int n)⟩
  | .real s => some ⟨stack, .done (.real s)⟩
  | .string (some s) => some ⟨stack, .done (.string s)⟩
  | .string none => some ⟨stack, .done .garbled⟩
  | _ => none

/-- The token follows a finished value. -/
def continueWith (v : Value) : List Open → Token → Option Machine
  | .array before :: stack, .comma => some ⟨.array (v :: before) :: stack, .value⟩
  | .array before :: stack, .closeBracket => some ⟨stack, .done (.array (v :: before).reverse)⟩
  | .object before key :: stack, .comma => some ⟨stack, .key ((key, v) :: before)⟩
  | .object before key :: stack, .closeBrace =>
    some ⟨stack, .done (.object ((key, v) :: before).reverse)⟩
  | _, _ => none

def step (m : Machine) (t : Token) : Option Machine :=
  match m.mode with
  | .value => beginValue m.stack t
  | .firstItem =>
    match t with
    | .closeBracket => some ⟨m.stack, .done (.array [])⟩
    | t => beginValue (.array [] :: m.stack) t
  | .firstKey =>
    match t with
    | .closeBrace => some ⟨m.stack, .done (.object [])⟩
    | .string s => some ⟨m.stack, .colon [] s⟩
    | _ => none
  | .key before =>
    match t with
    | .string s => some ⟨m.stack, .colon before s⟩
    | _ => none
  | .colon before key =>
    match t with
    | .colon => some ⟨.object before key :: m.stack, .value⟩
    | _ => none
  | .done v => continueWith v m.stack t

/-- The value of a finished document. -/
def result? (m : Machine) : Option Value :=
  match m with
  | ⟨[], .done v⟩ => some v
  | _ => none

end Machine

/-- Takes tokens one by one. -/
def run : Machine → List Token → Option Machine
  | m, [] => some m
  | m, t :: ts => (m.step t).bind fun m => run m ts

/-- The value of a document, which has nothing after it but blanks. -/
def parse? (b : Bytes) : Option Value := do
  let ts ← tokens? b
  let m ← run .start ts
  m.result?

end ClusterNet.Json
