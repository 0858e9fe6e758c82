import ClusterNet.Text.Number
import ClusterNet.Text.Reader

/-!
# Numbers and moments in TOML

Integers fit in 64 bits. Between two digits of a number there may be an underscore. Numbers
with a fraction are kept as they are written; one that is too great for a double is refused,
unless it is negative.
-/

namespace ClusterNet.Toml

open Text

/-! ## Digits with underscores -/

/-- More digits, each after at most one underscore. -/
def moreDigits (digit : Char → Option Nat) : List Char → Option (List Nat × List Char)
  | '_' :: c :: cs =>
    match digit c with
    | some d => (moreDigits digit cs).map fun (ds, rest) => (d :: ds, rest)
    | none => none
  | c :: cs =>
    match digit c with
    | some d => (moreDigits digit cs).map fun (ds, rest) => (d :: ds, rest)
    | none => if c = '_' then none else some ([], c :: cs)
  | [] => some ([], [])

def digitRun (digit : Char → Option Nat) : Reader (List Nat)
  | [] => none
  | c :: cs => do
    let d ← digit c
    let (ds, rest) ← moreDigits digit cs
    some (d :: ds, rest)

/-- A sign, which is true for minus. -/
def sign : List Char → Bool × List Char
  | '+' :: cs => (false, cs)
  | '-' :: cs => (true, cs)
  | cs => (false, cs)

/-- Decimal digits that are a zero alone or start with another digit. -/
def wholeDigits : Reader (List Nat)
  | '0' :: cs => some ([0], cs)
  | cs => digitRun digitValue? cs

/-! ## Integers -/

def inRange (n : Int) : Option Int :=
  if -9223372036854775808 ≤ n ∧ n ≤ 9223372036854775807 then some n else none

def signed (negative : Bool) (n : Nat) : Int := if negative then -n else n

def integer : Reader Int := fun cs =>
  let radix (r : Nat) (digit : Char → Option Nat) (cs : List Char) : Option (Int × List Char) := do
    let (ds, rest) ← digitRun digit cs
    some (← inRange (valueOf r ds), rest)
  match cs with
  | '0' :: 'x' :: cs => radix 16 hexValue? cs
  | '0' :: 'o' :: cs => radix 8 octalValue? cs
  | '0' :: 'b' :: cs => radix 2 bitValue? cs
  | cs => do
    let (negative, cs) := sign cs
    let (ds, rest) ← wholeDigits cs
    some (← inRange (signed negative (valueOf 10 ds)), rest)

/-! ## Fractions -/

/-- The least number that a double does not hold: half way from the greatest double up. -/
def doubleLimit : Nat := Nat.pow 2 1024 - Nat.pow 2 970

/-- Whether `m * 10 ^ e` is too great for a double. -/
def overflows (m : Nat) (e : Int) : Bool :=
  let size : Int := (decimal m).length + e
  if m = 0 || size < 309 then false
  else if 310 < size then true
  else if 0 ≤ e then doubleLimit ≤ m * Nat.pow 10 e.toNat
  else doubleLimit * Nat.pow 10 (-e).toNat ≤ m

def exponent : Reader Int := fun cs => do
  let (_, cs) ← oneOf ['e', 'E'] cs
  let (negative, cs) := sign cs
  let (ds, rest) ← digitRun digitValue? cs
  some (signed negative (valueOf 10 ds), rest)

def fraction : Reader (List Nat) := fun cs => do
  let (_, cs) ← char '.' cs
  digitRun digitValue? cs

/-- What follows the whole part: an exponent, or a fraction and perhaps an exponent. -/
def fractionalPart : Reader (List Nat × Int) := fun cs =>
  match exponent cs with
  | some (e, rest) => some (([], e), rest)
  | none => do
    let (ds, rest) ← fraction cs
    let (e, rest) ← optional exponent rest
    some ((ds, e.getD 0), rest)

/-- A number that is no integer. -/
def float : Reader String := fun cs => do
  let (negative, digits) := sign cs
  let taken (rest : List Char) := String.ofList (cs.take (cs.length - rest.length))
  match (either (word "inf".toList) (word "nan".toList)) digits with
  | some (_, rest) => some (taken rest, rest)
  | none => do
    let (ds, rest) ← wholeDigits digits
    let ((fs, e), rest) ← fractionalPart rest
    if !negative && overflows (valueOf 10 (ds ++ fs)) (e - fs.length) then none
    else some (taken rest, rest)

/-! ## Moments -/

def pad (width n : Nat) : List Char :=
  let ds := decimal n
  List.replicate (width - ds.length) '0' ++ ds

def isLeap (year : Nat) : Bool := year % 4 = 0 && (year % 100 != 0 || year % 400 = 0)

def daysIn (year month : Nat) : Nat :=
  if month = 2 then (if isLeap year then 29 else 28)
  else if [4, 6, 9, 11].contains month then 30
  else 31

/-- A number of `width` digits within bounds. -/
def bounded (width low high : Nat) : Reader Nat := fun cs => do
  let (n, rest) ← fixedDigits width cs
  if low ≤ n ∧ n ≤ high then some (n, rest) else none

/-- A day of the calendar, and its text. -/
def date : Reader (List Char) := fun cs => do
  let (y, cs) ← fixedDigits 4 cs
  let (_, cs) ← char '-' cs
  let (m, cs) ← bounded 2 1 12 cs
  let (_, cs) ← char '-' cs
  let (d, cs) ← bounded 2 1 (daysIn y m) cs
  some (pad 4 y ++ '-' :: pad 2 m ++ '-' :: pad 2 d, cs)

/-- Digits after a point, cut to nine places, without zeros at the end. -/
def secondFraction : Reader (List Char)
  | '.' :: cs => do
    let (ds, rest) := spanDigits digitValue? cs
    if ds.isEmpty then none
    else
      let kept := ((ds.take 9).reverse.dropWhile (· == 0)).reverse
      let text := kept.flatMap decimal
      some (if kept.isEmpty then [] else '.' :: text, rest)
  | _ => none

/-- A time of day; a minute may have a sixty-first second. -/
def timeOfDay : Reader (List Char) := fun cs => do
  let (h, cs) ← bounded 2 0 23 cs
  let (_, cs) ← char ':' cs
  let (m, cs) ← bounded 2 0 59 cs
  let (_, cs) ← char ':' cs
  let (s, cs) ← bounded 2 0 60 cs
  let (f, cs) ← optional secondFraction cs
  some (pad 2 h ++ ':' :: pad 2 m ++ ':' :: pad 2 s ++ f.getD [], cs)

/-- The distance from universal time. -/
def offset : Reader (List Char)
  | 'Z' :: cs => some (['Z'], cs)
  | 'z' :: cs => some (['Z'], cs)
  | cs => do
    let (c, cs) ← oneOf ['+', '-'] cs
    let (h, cs) ← bounded 2 0 23 cs
    let (_, cs) ← char ':' cs
    let (m, cs) ← bounded 2 0 59 cs
    let c := if h = 0 ∧ m = 0 then '+' else c
    some (c :: pad 2 h ++ ':' :: pad 2 m, cs)

/-- A time after a date: a letter or a space divides them. -/
def laterTime : Reader (List Char) := fun cs => do
  let (_, cs) ← oneOf ['T', 't', ' '] cs
  let (t, cs) ← timeOfDay cs
  let (o, cs) ← optional offset cs
  some ('T' :: t ++ o.getD [], cs)

def moment : Reader String := fun cs =>
  match date cs with
  | some (d, rest) => do
    let (t, rest) ← optional laterTime rest
    some (String.ofList (d ++ t.getD []), rest)
  | none => (timeOfDay cs).map fun (t, rest) => (String.ofList t, rest)

end ClusterNet.Toml
