import ClusterNet.Text.Reader

/-!
# Strings in TOML

A string is basic, with escapes, or literal, without. Either form may run over many lines
when its quotes are tripled; a line break right after the opening quotes is dropped, and
each line break in the text counts as a line feed.
-/

namespace ClusterNet.Toml

open Text

/-- A character that may stand for itself: a tab, or anything that is no control. -/
def isPlain (c : Char) : Bool := c == '\t' || (0x20 ≤ c.toNat && c.toNat != 0x7F)

def isSpace (c : Char) : Bool := c == ' ' || c == '\t'

/-- The character that hexadecimal digits name. Surrogates are none. -/
def codePoint? (digits : List Char) : Option Char := do
  let n := valueOf 16 (← digits.mapM hexValue?)
  if h : n.isValidChar then some (Char.ofNatAux n h) else none

def shortEscape? (c : Char) : Option Char :=
  match c with
  | 'b' => some '\x08'
  | 'f' => some '\x0c'
  | 'n' => some '\n'
  | 'r' => some '\r'
  | 't' => some '\t'
  | '\\' => some '\\'
  | '"' => some '"'
  | _ => none

/-- The rest of a basic string, with what it denotes in reverse after `done`. -/
def basic (done : List Char) : Reader (List Char)
  | [] => none
  | '"' :: rest => some (done.reverse, rest)
  | '\\' :: 'u' :: a :: b :: c :: d :: rest =>
    match codePoint? [a, b, c, d] with
    | some x => basic (x :: done) rest
    | none => none
  | '\\' :: 'U' :: a :: b :: c :: d :: e :: f :: g :: h :: rest =>
    match codePoint? [a, b, c, d, e, f, g, h] with
    | some x => basic (x :: done) rest
    | none => none
  | '\\' :: e :: rest =>
    match shortEscape? e with
    | some x => basic (x :: done) rest
    | none => none
  | c :: rest => if isPlain c then basic (c :: done) rest else none

/-- The rest of a literal string. -/
def literal (done : List Char) : Reader (List Char)
  | [] => none
  | '\'' :: rest => some (done.reverse, rest)
  | c :: rest => if isPlain c then literal (c :: done) rest else none

/-- A line break follows, after spaces at most. -/
def endsLine (cs : List Char) : Bool :=
  match cs.dropWhile isSpace with
  | '\n' :: _ => true
  | '\r' :: '\n' :: _ => true
  | _ => false

/-- The rest of a basic string of many lines. After a backslash at the end of a line,
`skipping` drops blanks and line breaks up to the next character. Up to two quotes may stand
right before the closing ones. -/
def basicLines (skipping : Bool) (done : List Char) : Reader (List Char)
  | [] => none
  | '"' :: '"' :: '"' :: '"' :: '"' :: rest => some (('"' :: '"' :: done).reverse, rest)
  | '"' :: '"' :: '"' :: '"' :: rest => some (('"' :: done).reverse, rest)
  | '"' :: '"' :: '"' :: rest => some (done.reverse, rest)
  | '\r' :: '\n' :: rest => basicLines skipping (if skipping then done else '\n' :: done) rest
  | '\n' :: rest => basicLines skipping (if skipping then done else '\n' :: done) rest
  | '\\' :: 'u' :: a :: b :: c :: d :: rest =>
    match codePoint? [a, b, c, d] with
    | some x => basicLines false (x :: done) rest
    | none => none
  | '\\' :: 'U' :: a :: b :: c :: d :: e :: f :: g :: h :: rest =>
    match codePoint? [a, b, c, d, e, f, g, h] with
    | some x => basicLines false (x :: done) rest
    | none => none
  | '\\' :: e :: rest =>
    if endsLine (e :: rest) then
      if isSpace e || e == '\n' then basicLines true done rest
      else
        match rest with
        | _ :: rest => basicLines true done rest
        | [] => none
    else
      match shortEscape? e with
      | some x => basicLines false (x :: done) rest
      | none => none
  | c :: rest =>
    if skipping && isSpace c then basicLines true done rest
    else if isPlain c then basicLines false (c :: done) rest
    else none

/-- The rest of a literal string of many lines. -/
def literalLines (done : List Char) : Reader (List Char)
  | [] => none
  | '\'' :: '\'' :: '\'' :: '\'' :: '\'' :: rest => some (('\'' :: '\'' :: done).reverse, rest)
  | '\'' :: '\'' :: '\'' :: '\'' :: rest => some (('\'' :: done).reverse, rest)
  | '\'' :: '\'' :: '\'' :: rest => some (done.reverse, rest)
  | '\r' :: '\n' :: rest => literalLines ('\n' :: done) rest
  | '\n' :: rest => literalLines ('\n' :: done) rest
  | c :: rest => if isPlain c then literalLines (c :: done) rest else none

/-- Drops a line break at the front. -/
def dropBreak : List Char → List Char
  | '\n' :: rest => rest
  | '\r' :: '\n' :: rest => rest
  | cs => cs

/-- A string of one line. -/
def oneLine : Reader String
  | '"' :: rest => (basic [] rest).map fun (cs, rest) => (String.ofList cs, rest)
  | '\'' :: rest => (literal [] rest).map fun (cs, rest) => (String.ofList cs, rest)
  | _ => none

/-- A string of any form. -/
def quotation : Reader String
  | '"' :: '"' :: '"' :: rest =>
    (basicLines false [] (dropBreak rest)).map fun (cs, rest) => (String.ofList cs, rest)
  | '\'' :: '\'' :: '\'' :: rest =>
    (literalLines [] (dropBreak rest)).map fun (cs, rest) => (String.ofList cs, rest)
  | cs => oneLine cs

end ClusterNet.Toml
