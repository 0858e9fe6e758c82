import ClusterNet.Consensus.Files

/-!
# Serving a directory

A directory reader serves the files under one directory, and only by plain relative names:
nothing that starts at the root, at the directory itself, or goes up.
-/

namespace ClusterNet.Consensus

/-! ## Names -/

/-- The parts of a path between slashes. -/
def pathParts (s : String) : List (List Char) := s.toList.splitOn '/'

/-- The names along a plain relative path. Empty parts and single points in the middle count
for nothing. -/
def plainNames? (filename : String) : Option (List (List Char)) :=
  let parts := pathParts filename
  match parts with
  | [] => none
  | first :: _ =>
    if first = [] ∨ first = ['.'] ∨ parts.contains ['.', '.'] then none
    else some (parts.filter fun p => p ≠ [] ∧ p ≠ ['.'])

/-- The path goes on after its last name, so that it can only be a directory. -/
def wantsDirectory (filename : String) : Bool :=
  match (pathParts filename).getLast? with
  | some last => last = [] || last = ['.']
  | none => false

/-! ## Storage -/

/-- Files by the names along their paths, and the directories that were made for them. -/
structure Storage where
  files : Table (List (List Char)) Bytes
  directories : List (List (List Char))
  /-- The size of the longest name that can be opened. It depends on where the directories are. -/
  longest : Nat
  deriving Inhabited

/-- What an opened path is. -/
inductive Opened where
  | file (content : Bytes)
  | directory
  deriving DecidableEq, Repr

namespace Storage

def empty (longest : Nat) : Storage := ⟨.empty, [[]], longest⟩

/-- A file comes with the directories on its way. -/
def write (s : Storage) (path : List (List Char)) (content : Bytes) : Storage :=
  { s with
    files := s.files.insert path content
    directories := s.directories ++ (List.range path.length).map path.take }

def delete (s : Storage) (path : List (List Char)) : Storage :=
  { s with files := s.files.erase path }

def open? (s : Storage) (path : List (List Char)) (asDirectory : Bool) : Option Opened :=
  match s.files.get? path with
  | some content => if asDirectory then none else some (.file content)
  | none => if s.directories.contains path then some .directory else none

end Storage

/-! ## Reading -/

/-- What one read of an open file gives. -/
inductive Grant where
  /-- Nothing; it has to be tried again. -/
  | interrupted
  /-- One byte more than `n`, or what is wanted if that is less. -/
  | bytes (n : Nat)
  deriving DecidableEq, Repr

/-- Reads until `want` bytes are there or the file ends. What `grants` leaves open is read at
once. -/
def gather : List Grant → (want : Nat) → Bytes → Bytes
  | [], want, rest => rest.take want
  | .interrupted :: gs, want, rest => gather gs want rest
  | .bytes n :: gs, want, rest =>
    let k := min (n + 1) want
    rest.take k ++ gather gs (want - k) (rest.drop k)

/-- The size that an open directory shows. It cannot be read. -/
def directorySize : Nat := 4096

/-- A range of an open file. -/
def Opened.read (grants : List Grant) (offset count : Nat) : Opened → Except Trouble Chunk
  | .file content =>
    if content.length ≤ offset then .ok ⟨[], true⟩
    else
      let rest := content.drop offset
      let data := gather grants (min count (content.length - offset)) rest
      .ok ⟨data, decide (content.length ≤ offset + data.length)⟩
  | .directory => if directorySize ≤ offset then .ok ⟨[], true⟩ else .error .failed

/-- Reads from the directory at `base`, whose files all have paths that start with it. -/
def readUnder (grants : List Grant) (base : List (List Char)) (s : Storage) (filename : String)
    (offset count : Nat) : Except Trouble Chunk :=
  match plainNames? filename with
  | none => .error .failed
  | some names =>
    if s.longest < filename.utf8ByteSize then .error .failed
    else
      match s.open? (base ++ names) (wantsDirectory filename) with
      | some o => o.read grants offset count
      | none => .error .failed

/-- A reader for one directory. -/
def directoryReader (place : String) (base : List (List Char)) : Reader Storage :=
  ⟨place, readUnder [] base⟩

end ClusterNet.Consensus
