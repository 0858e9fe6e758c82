import ClusterNet.Consensus.Message
import ClusterNet.Table
import ClusterNet.Text.Quoted

/-!
# Serving files

A reader serves byte ranges of the files in one place. The service knows its readers by id and
answers one request at a time; what goes wrong is said in the reply. Ids are given out in
order and wrap around, and an id that is still taken is skipped with an answer of minus one.
-/

namespace ClusterNet.Consensus

/-- Some bytes of a file, and whether they reach its end. -/
structure Chunk where
  data : Bytes
  eof : Bool
  deriving DecidableEq, Repr, Inhabited

/-- Why a read gives nothing. -/
inductive Trouble where
  /-- The data is not there yet. -/
  | notYet (reason : String)
  | failed
  deriving DecidableEq, Repr

/-- Serves ranges of files. What it reads depends on the storage `S` at that moment. -/
structure Reader (S : Type) where
  place : String
  read : S → (filename : String) → (offset count : Nat) → Except Trouble Chunk

structure FileService (S : Type) where
  readers : Table Int64 (Reader S)
  nextId : Int64
  maxChunk : Int64

/-- The request as messages show it. -/
def FileRequest.describe (r : FileRequest) : String :=
  s!"GetFileRequest \x7b reader_id: {r.readerId.toInt}, filename: {Text.quoted r.filename}, " ++
    s!"count: {r.count.toInt}, offset: {r.offset.toInt}, read_partly: {r.readPartly} \x7d"

namespace FileService

variable {S : Type}

/-- The most that one reply carries unless something else is said. -/
def defaultChunk : Int64 := 4194304

def ofInitialId (initial : Int64) : FileService S := ⟨.empty, initial, defaultChunk⟩

/-- Caps what one reply carries, at one byte or more. -/
def withMaxChunk (f : FileService S) (n : Int64) : FileService S :=
  { f with maxChunk := if n < 1 then 1 else n }

/-- Registers a reader and gives its id, or minus one if the id is taken. -/
def add (f : FileService S) (r : Reader S) : Int64 × FileService S :=
  let id := f.nextId
  let f := { f with nextId := id + 1 }
  if f.readers.contains id then (-1, f) else (id, { f with readers := f.readers.insert id r })

/-- Removes a reader, and says whether it was there. -/
def remove (f : FileService S) (id : Int64) : Bool × FileService S :=
  (f.readers.contains id, { f with readers := f.readers.erase id })

def count (f : FileService S) : Nat := f.readers.size

def troubleText (place filename : String) : String :=
  s!"fail to read from path={place} filename={filename}"

/-- What a reader's result becomes in a reply. -/
def replyOf (place filename : String) : Except Trouble Chunk → FileReply
  | .ok c => { eof := c.eof, data := c.data, readSize := Int64.ofNat c.data.length }
  | .error (.notYet reason) =>
    .refused (.ofCode .tryAgain s!"{troubleText place filename} with error: {reason}")
  | .error .failed => .refused (.ofCode .failedIo (troubleText place filename))

/-- Serves one range. -/
def handle (f : FileService S) (storage : S) (r : FileRequest) : FileReply :=
  if r.count ≤ 0 ∨ r.offset < 0 then
    .refused (.ofCode .badRequest s!"invalid request: {r.describe}")
  else
    match f.readers.get? r.readerId with
    | none => .refused (.ofCode .noEntry s!"fail to find reader={r.readerId.toInt}")
    | some reader =>
      let count := if f.maxChunk < r.count then f.maxChunk else r.count
      replyOf reader.place r.filename
        (reader.read storage r.filename r.offset.toInt.toNat count.toInt.toNat)

/-- Asks for one chunk after the other, each from where the one before ended, up to the end of
the file, a refusal, or `rounds` requests. The replies, in order. -/
def fetch (f : FileService S) (storage : S) : (rounds : Nat) → FileRequest → List FileReply
  | 0, _ => []
  | rounds + 1, r =>
    let reply := f.handle storage r
    if reply.eof || !reply.isOk then [reply]
    else reply :: fetch f storage rounds { r with offset := r.offset + reply.readSize }

end FileService

end ClusterNet.Consensus
