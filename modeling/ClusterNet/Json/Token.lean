import ClusterNet.Json.Value

/-!
# JSON tokens

Documents come as bytes. A string token carries the text it denotes, if it denotes one:
both halves of a surrogate pair must be there, in order, and the bytes must be UTF-8.
Controls inside a string are refused, and so are escapes that are not in the grammar.
-/

namespace ClusterNet.Json

inductive Token where
  | openBrace
  | closeBrace
  | openBracket
  | closeBracket
  | colon
  | comma
  | null
  | bool (b : Bool)
  | int (n : Int)
  | real (literal : String)
  | string (s : Option String)
  deriving Repr, DecidableEq

/-! ## Strings -/

/-- What a string literal is made of: bytes, and sixteen bit units written as escapes. -/
inductive Piece where
  | byte (b : UInt8)
  | unit (u : Nat)

def hexValue? (b : UInt8) : Option Nat :=
  if 0x30 ≤ b ∧ b ≤ 0x39 then some (b.toNat - 0x30)
  else if 0x61 ≤ b ∧ b ≤ 0x66 then some (b.toNat - 0x57)
  else if 0x41 ≤ b ∧ b ≤ 0x46 then some (b.toNat - 0x37)
  else none

def unit? (a b c d : UInt8) : Option Nat := do
  some ((← hexValue? a) * 4096 + (← hexValue? b) * 256 + (← hexValue? c) * 16 + (← hexValue? d))

/-- The byte that a one letter escape stands for. -/
def shortEscape? (b : UInt8) : Option UInt8 :=
  if b = 0x22 then some 0x22
  else if b = 0x5C then some 0x5C
  else if b = 0x2F then some 0x2F
  else if b = 0x62 then some 0x08
  else if b = 0x66 then some 0x0C
  else if b = 0x6E then some 0x0A
  else if b = 0x72 then some 0x0D
  else if b = 0x74 then some 0x09
  else none

/-- The pieces up to the closing quote, after those in `done`, and the rest. -/
def pieces (done : List Piece) : Bytes → Option (List Piece × Bytes)
  | [] => none
  | 0x22 :: rest => some (done.reverse, rest)
  | 0x5C :: 0x75 :: a :: b :: c :: d :: rest =>
    match unit? a b c d with
    | some u => pieces (.unit u :: done) rest
    | none => none
  | 0x5C :: b :: rest =>
    match shortEscape? b with
    | some e => pieces (.byte e :: done) rest
    | none => none
  | b :: rest => if b < 0x20 ∨ b = 0x5C then none else pieces (.byte b :: done) rest

def isHigh (u : Nat) : Bool := 0xD800 ≤ u && u ≤ 0xDBFF

def isLow (u : Nat) : Bool := 0xDC00 ≤ u && u ≤ 0xDFFF

/-- The bytes that the pieces denote, in reverse after `done`. -/
def denoted (done : Bytes) : List Piece → Option Bytes
  | [] => some done.reverse
  | .byte b :: rest => denoted (b :: done) rest
  | .unit u :: .unit v :: rest =>
    if isHigh u then
      if isLow v then
        let c := Char.ofNat (0x10000 + (u - 0xD800) * 0x400 + (v - 0xDC00))
        denoted ((String.utf8EncodeChar c).reverse ++ done) rest
      else none
    else if isLow u then none
    else denoted ((String.utf8EncodeChar (Char.ofNat u)).reverse ++ done) (.unit v :: rest)
  | .unit u :: rest =>
    if isHigh u || isLow u then none
    else denoted ((String.utf8EncodeChar (Char.ofNat u)).reverse ++ done) rest

def textOf (ps : List Piece) : Option String := (denoted [] ps).bind Bytes.text?

/-! ## Numbers -/

def isDigit (b : UInt8) : Bool := 0x30 ≤ b && b ≤ 0x39

def spanDigits (b : Bytes) : Bytes × Bytes := b.span isDigit

def asChars (b : Bytes) : List Char := b.map fun x => Char.ofNat x.toNat

/-- The digits before a point or an exponent: a zero alone, or digits that start with another. -/
def wholePart : Bytes → Option (Bytes × Bytes)
  | 0x30 :: rest => some ([0x30], rest)
  | b :: rest =>
    if isDigit b then let (ds, rest) := spanDigits rest; some (b :: ds, rest) else none
  | [] => none

/-- A point and at least one digit, if a point comes. -/
def fraction : Bytes → Option (Bytes × Bytes)
  | 0x2E :: rest =>
    match spanDigits rest with
    | ([], _) => none
    | (ds, rest) => some (0x2E :: ds, rest)
  | rest => some ([], rest)

/-- An exponent with an optional sign, if one comes. -/
def exponent : Bytes → Option (Bytes × Bytes)
  | [] => some ([], [])
  | e :: rest =>
    if e = 0x65 ∨ e = 0x45 then
      let (sign, rest) : Bytes × Bytes := match rest with
        | 0x2B :: r => ([0x2B], r)
        | 0x2D :: r => ([0x2D], r)
        | r => ([], r)
      match spanDigits rest with
      | ([], _) => none
      | (ds, rest) => some (e :: sign ++ ds, rest)
    else some ([], e :: rest)

/-- A number. Minus zero is no integer. -/
def number (b : Bytes) : Option (Token × Bytes) := do
  let (negative, rest) := match b with
    | 0x2D :: r => (true, r)
    | r => (false, r)
  let (digits, rest) ← wholePart rest
  let (frac, rest) ← fraction rest
  let (exp, rest) ← exponent rest
  let n := Nat.ofDigitChars 10 (asChars digits) 0
  if frac.isEmpty && exp.isEmpty && !(negative && n == 0) then
    some (.int (if negative then -n else n), rest)
  else
    let sign := if negative then ['-'] else []
    some (.real (String.ofList (sign ++ asChars (digits ++ frac ++ exp))), rest)

/-! ## Documents -/

def isBlank (b : UInt8) : Bool := b = 0x20 || b = 0x09 || b = 0x0A || b = 0x0D

/-- The token at the front of a document that starts with no blank. -/
def token : Bytes → Option (Token × Bytes)
  | 0x7B :: rest => some (.openBrace, rest)
  | 0x7D :: rest => some (.closeBrace, rest)
  | 0x5B :: rest => some (.openBracket, rest)
  | 0x5D :: rest => some (.closeBracket, rest)
  | 0x3A :: rest => some (.colon, rest)
  | 0x2C :: rest => some (.comma, rest)
  | 0x6E :: 0x75 :: 0x6C :: 0x6C :: rest => some (.null, rest)
  | 0x74 :: 0x72 :: 0x75 :: 0x65 :: rest => some (.bool true, rest)
  | 0x66 :: 0x61 :: 0x6C :: 0x73 :: 0x65 :: rest => some (.bool false, rest)
  | 0x22 :: rest => (pieces [] rest).map fun (ps, rest) => (.string (textOf ps), rest)
  | b => number b

/-- All tokens of a document, after those in `done`. A token takes at least one byte, so as
many rounds as there are bytes are enough. -/
def scan (done : List Token) : Nat → Bytes → Option (List Token)
  | _, [] => some done.reverse
  | 0, _ => none
  | rounds + 1, b :: rest =>
    if isBlank b then scan done rounds rest
    else
      match token (b :: rest) with
      | some (t, rest) => scan (t :: done) rounds rest
      | none => none

def tokens? (b : Bytes) : Option (List Token) := scan [] b.length b

end ClusterNet.Json
