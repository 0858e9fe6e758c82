import ClusterNet.Address

/-!
# Semantic versions

A version has three numbers, and may have a label after a hyphen and a build after a plus
sign. Labels and builds are made of parts with points between them. Every version has one
spelling, so its text is the text it was read from.
-/

namespace ClusterNet

structure SemVer where
  major : UInt64
  minor : UInt64
  patch : UInt64
  label : List (List Char)
  build : List (List Char)
  deriving DecidableEq, Repr

namespace SemVer

/-- A number that fits in 64 bits, without leading zeros. -/
def number? (cs : List Char) : Option UInt64 :=
  match cs with
  | '0' :: _ :: _ => none
  | _ => (Text.digitsValue? cs).bind fun n => if n < UInt64.size then some n.toUInt64 else none

def isPartChar (c : Char) : Bool := c.isAlphanum || c == '-'

def isPart (cs : List Char) : Bool := !cs.isEmpty && cs.all isPartChar

/-- A part of a label: a number there has no leading zeros. -/
def isLabelPart (cs : List Char) : Bool :=
  isPart cs && !(cs.all Char.isDigit && cs.head? == some '0' && 1 < cs.length)

/-- The pieces of a text between the points. -/
def pieces (cs : List Char) : List (List Char) := cs.splitOn '.'

/-- What stands before the first `c`, and the pieces after it if there is one. -/
def cut (c : Char) (cs : List Char) : List Char × Option (List (List Char)) :=
  match Address.splitAt? c cs with
  | some (before, after) => (before, some (pieces after))
  | none => (cs, none)

def parse? (s : String) : Option SemVer := do
  let (cs, build) := cut '+' s.toList
  let (cs, label) := cut '-' cs
  let build := build.getD []
  let label := label.getD []
  match pieces cs with
  | [a, b, c] =>
    if label.all isLabelPart && build.all isPart then
      some ⟨← number? a, ← number? b, ← number? c, label, build⟩
    else none
  | _ => none

def joined (mark : Char) (parts : List (List Char)) : List Char :=
  if parts.isEmpty then [] else mark :: ['.'].intercalate parts

def text (v : SemVer) : String :=
  let core := ['.'].intercalate
    [Text.decimal v.major.toNat, Text.decimal v.minor.toNat, Text.decimal v.patch.toNat]
  String.ofList (core ++ joined '-' v.label ++ joined '+' v.build)

end SemVer

end ClusterNet
