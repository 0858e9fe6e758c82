import ClusterNet.Toml.Statement

/-!
# Documents

The statements of a document, put together into tables. The assignments that follow a header
belong to its table; those before the first header belong to the document itself.
-/

namespace ClusterNet.Toml

/-- The assignments before the next header, and what follows. -/
def body : List Statement → List (List String × String × Value) × List Statement
  | .assign path k v :: rest => let (b, rest) := body rest; ((path, k, v) :: b, rest)
  | rest => ([], rest)

/-- Reads the sections one after the other. Each takes a statement at least. -/
def sections : (rounds : Nat) → List Statement → Entries → Option Entries
  | _, [], es => some es
  | 0, _, _ => none
  | rounds + 1, s :: rest, es =>
    match s with
    | .assign .. => none
    | .header path k =>
      let (b, rest) := body rest
      (under path (openTable k b) es).bind (sections rounds rest)
    | .arrayHeader path k =>
      let (b, rest) := body rest
      (under path (addTable k b) es).bind (sections rounds rest)

/-- The table that a list of statements describes, if none contradicts another. -/
def ofStatements? (ss : List Statement) : Option (List (String × Value)) := do
  let (b, rest) := body ss
  let es ← fill [] b
  (sections rest.length rest es).map values

def parse? (s : String) : Option (List (String × Value)) := (statements? s).bind ofStatements?

end ClusterNet.Toml
