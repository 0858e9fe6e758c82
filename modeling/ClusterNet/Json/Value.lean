import ClusterNet.Bytes

/-!
# JSON values and their compact text

A value keeps the order of its members. A string in a document may denote no text, when it
holds half a surrogate pair or bytes that are no UTF-8. Such a string is allowed where its
value is not used, so it has its own constructor.
-/

namespace ClusterNet.Json

inductive Value where
  | null
  | bool (b : Bool)
  /-- A number written as an integer. -/
  | int (n : Int)
  /-- Any other number, as it is written. -/
  | real (literal : String)
  | string (s : String)
  /-- A string that denotes no text. -/
  | garbled
  | array (items : List Value)
  /-- A key is missing where the document has one that denotes no text. -/
  | object (members : List (Option String × Value))
  deriving Inhabited

namespace Value

/-- An object whose keys are all texts. -/
def record (members : List (String × Value)) : Value :=
  .object (members.map fun (k, v) => (some k, v))

end Value

/-! ## Writing -/

def hexDigit (n : Nat) : Char := Nat.digitChar n

/-- Only quotes, backslashes and controls are escaped. -/
def escapedChar (c : Char) : List Char :=
  if c = '"' then ['\\', '"']
  else if c = '\\' then ['\\', '\\']
  else if c = '\x08' then ['\\', 'b']
  else if c = '\x0c' then ['\\', 'f']
  else if c = '\n' then ['\\', 'n']
  else if c = '\r' then ['\\', 'r']
  else if c = '\t' then ['\\', 't']
  else if c.toNat < 0x20 then
    ['\\', 'u', '0', '0', hexDigit (c.toNat / 16), hexDigit (c.toNat % 16)]
  else [c]

def stringChars (s : String) : List Char := '"' :: (s.toList.flatMap escapedChar ++ ['"'])

def intChars : Int → List Char
  | .ofNat n => Nat.toDigits 10 n
  | .negSucc n => '-' :: Nat.toDigits 10 (n + 1)

namespace Value

mutual

/-- The text of a value, without blanks. -/
def chars : Value → List Char
  | .null => "null".toList
  | .bool true => "true".toList
  | .bool false => "false".toList
  | .int n => intChars n
  | .real s => s.toList
  | .string s => stringChars s
  | .garbled => stringChars ""
  | .array [] => ['[', ']']
  | .array (v :: vs) => '[' :: chars v ++ moreItems vs
  | .object [] => ['{', '}']
  | .object ((k, v) :: ms) => '{' :: stringChars (k.getD "") ++ ':' :: chars v ++ moreMembers ms

/-- The items after the first, and the end of the array. -/
def moreItems : List Value → List Char
  | [] => [']']
  | v :: vs => ',' :: chars v ++ moreItems vs

/-- The members after the first, and the end of the object. -/
def moreMembers : List (Option String × Value) → List Char
  | [] => ['}']
  | (k, v) :: ms => ',' :: stringChars (k.getD "") ++ ':' :: chars v ++ moreMembers ms

end

def text (v : Value) : String := String.ofList v.chars

/-- The text as it is sent. -/
def bytes (v : Value) : Bytes := Bytes.ofText v.text

end Value

end ClusterNet.Json
