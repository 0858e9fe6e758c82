import ClusterNet.Toml.Number
import ClusterNet.Toml.Quotation
import ClusterNet.Toml.Table

/-!
# Statements of a TOML document

A document is a list of statements: a key with a value, or the header of a table or of one
more table in an array.
-/

namespace ClusterNet.Toml

open Text

inductive Statement where
  /-- The keys before the last one, the last one, and the value. -/
  | assign (path : List String) (key : String) (v : Value)
  | header (path : List String) (key : String)
  | arrayHeader (path : List String) (key : String)

/-- Keys and arrays may not be nested so deep. -/
def depthLimit : Nat := 80

/-! ## Blanks and comments -/

def skipSpace (cs : List Char) : List Char := cs.dropWhile isSpace

/-- Skips a comment, if one comes. -/
def skipComment : List Char → List Char
  | '#' :: cs => cs.dropWhile isPlain
  | cs => cs

/-- The end of a line, or of the document. -/
def lineEnd : List Char → Option (List Char)
  | [] => some []
  | '\n' :: cs => some cs
  | '\r' :: '\n' :: cs => some cs
  | _ => none

/-- The end of a line after spaces and a comment. -/
def trailing (cs : List Char) : Option (List Char) := lineEnd (skipComment (skipSpace cs))

/-- Skips spaces, comments and line breaks between the items of an array. Each round takes a
character at least, so as many rounds as there are characters are enough. -/
def skipLines : (rounds : Nat) → List Char → List Char
  | 0, cs => cs
  | rounds + 1, cs =>
    match skipSpace cs with
    | '\n' :: rest => skipLines rounds rest
    | '\r' :: '\n' :: rest => skipLines rounds rest
    | '#' :: rest =>
      match rest.dropWhile isPlain with
      | '\n' :: rest => skipLines rounds rest
      | '\r' :: '\n' :: rest => skipLines rounds rest
      | _ => '#' :: rest
    | rest => rest

/-! ## Keys -/

def isBare (c : Char) : Bool := c.isAlphanum || c == '-' || c == '_'

def simpleKey : Reader String := fun cs =>
  match cs with
  | '"' :: _ => oneLine cs
  | '\'' :: _ => oneLine cs
  | _ =>
    match cs.span isBare with
    | ([], _) => none
    | (k, rest) => some (String.ofList k, rest)

/-- The keys of a dotted key. Each takes a character at least. -/
def keyParts : (rounds : Nat) → Reader (List String)
  | 0, _ => none
  | rounds + 1, cs => do
    let (k, rest) ← simpleKey (skipSpace cs)
    match skipSpace rest with
    | '.' :: rest => (keyParts rounds rest).map fun (ks, rest) => (k :: ks, rest)
    | rest => some ([k], rest)

/-- A dotted key, cut before its last part. -/
def key : Reader (List String × String) := fun cs => do
  let (ks, rest) ← keyParts cs.length cs
  if depthLimit ≤ ks.length then none
  else some ((ks.dropLast, ← ks.getLast?), rest)

/-! ## Values -/

/-- The items of an array up to the closing bracket. A comma may stand after the last one. -/
def arrayItems (value : Reader Value) : (rounds : Nat) → Reader (List Value)
  | 0, _ => none
  | rounds + 1, cs =>
    match skipLines cs.length cs with
    | ']' :: rest => some ([], rest)
    | cs => do
      let (v, rest) ← value cs
      match skipLines rest.length rest with
      | ',' :: rest => (arrayItems value rounds rest).map fun (vs, rest) => (v :: vs, rest)
      | ']' :: rest => some ([v], rest)
      | _ => none

/-- The pairs of an inline table up to the closing brace. They stand on one line. -/
def inlinePairs (value : Reader Value) :
    (rounds : Nat) → Reader (List (List String × String × Value))
  | 0, _ => none
  | rounds + 1, cs => do
    let ((path, k), rest) ← key cs
    let (_, rest) ← char '=' rest
    let (v, rest) ← value (skipSpace rest)
    match skipSpace rest with
    | ',' :: rest =>
      (inlinePairs value rounds rest).map fun (ps, rest) => ((path, k, v) :: ps, rest)
    | '\x7d' :: rest => some ([(path, k, v)], rest)
    | _ => none

def inlineTable (value : Reader Value) : Reader Value := fun cs =>
  match skipSpace cs with
  | '\x7d' :: rest => some (.table [], rest)
  | cs => do
    let (ps, rest) ← inlinePairs value cs.length cs
    let es ← fill [] ps
    some (.table (values es), rest)

/-- A value in which arrays and inline tables are nested `room` deep at most. -/
def value : (room : Nat) → Reader Value
  | room, cs =>
    match cs with
    | [] => none
    | c :: rest =>
      if c = '"' ∨ c = '\'' then (quotation cs).map fun (s, rest) => (.string s, rest)
      else if c = '[' then
        match room with
        | 0 => none
        | room + 1 =>
          (arrayItems (value room) (rest.length + 1) rest).map fun (vs, rest) => (.array vs, rest)
      else if c = '\x7b' then
        match room with
        | 0 => none
        | room + 1 => inlineTable (value room) rest
      else if c = 't' then (word "true".toList cs).map fun (_, rest) => (.boolean true, rest)
      else if c = 'f' then (word "false".toList cs).map fun (_, rest) => (.boolean false, rest)
      else
        match moment cs with
        | some (m, rest) => some (.moment m, rest)
        | none =>
          match float cs with
          | some (f, rest) => some (.float f, rest)
          | none => (integer cs).map fun (n, rest) => (.integer n, rest)

/-! ## Documents -/

/-- A header's key and the closing brackets. -/
def headerKey (closing : List Char) (cs : List Char) :
    Option ((List String × String) × List Char) := do
  let (k, rest) ← key cs
  let (_, rest) ← word closing rest
  some (k, ← trailing rest)

/-- One statement from the front of a line that holds one. -/
def statement (cs : List Char) : Option (Statement × List Char) :=
  match cs with
  | '[' :: '[' :: rest =>
    (headerKey [']', ']'] rest).map fun ((p, k), rest) => (.arrayHeader p k, rest)
  | '[' :: rest => (headerKey [']'] rest).map fun ((p, k), rest) => (.header p k, rest)
  | _ => do
    let ((p, k), rest) ← key cs
    let (_, rest) ← char '=' rest
    let (v, rest) ← value (depthLimit - 1) (skipSpace rest)
    some (.assign p k v, ← trailing rest)

/-- All statements of a document. Each line takes a character at least. -/
def statementsIn : (rounds : Nat) → List Char → Option (List Statement)
  | 0, cs => if cs.isEmpty then some [] else none
  | rounds + 1, cs =>
    match skipSpace cs with
    | [] => some []
    | '\n' :: rest => statementsIn rounds rest
    | '\r' :: '\n' :: rest => statementsIn rounds rest
    | '#' :: rest => (lineEnd (rest.dropWhile isPlain)).bind (statementsIn rounds)
    | cs => do
      let (s, rest) ← statement cs
      (statementsIn rounds rest).map (s :: ·)

/-- Drops a byte order mark. -/
def dropMark : List Char → List Char
  | '\ufeff' :: cs => cs
  | cs => cs

def statements? (s : String) : Option (List Statement) :=
  let cs := dropMark s.toList
  statementsIn cs.length cs

end ClusterNet.Toml
