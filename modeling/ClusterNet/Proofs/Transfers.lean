import ClusterNet.Consensus.Directory
import ClusterNet.Proofs.Words
import Mathlib.Algebra.Order.Floor.Div
import Mathlib.Data.List.Basic

/-!
# Downloads rebuild the file

A client asks for one chunk after the other, each from where the one before ended, until a reply
says that the file has ended. Put together the chunks are the file, and there are as many as are
needed to fill it. Reading may come short or be interrupted as often as it likes: a chunk is not
sent before it is full.
-/

namespace ClusterNet.Consensus

/-! ## One read -/

theorem gather_eq_take (grants : List Grant) (want : Nat) (rest : Bytes) :
    gather grants want rest = rest.take want := by
  induction grants generalizing want rest with
  | nil => rfl
  | cons g gs ih =>
    cases g with
    | interrupted => exact ih want rest
    | bytes n =>
      have hsum : min (n + 1) want + (want - min (n + 1) want) = want := by omega
      rw [gather, ih, ← List.take_add, hsum]

/-- A range of a file does not depend on how the reads go. -/
theorem read_file (grants : List Grant) (content : Bytes) (offset count : Nat) :
    (Opened.file content).read grants offset count =
      .ok ⟨(content.drop offset).take count, decide (content.length ≤ offset + count)⟩ := by
  rw [Opened.read]
  split
  · rename_i hpast
    rw [List.drop_eq_nil_of_le hpast, List.take_nil, decide_eq_true (by omega)]
  · rename_i hinside
    have hdata : gather grants (min count (content.length - offset)) (content.drop offset) =
        (content.drop offset).take count := by
      rw [gather_eq_take, ← List.length_drop, List.take_eq_take_iff]
      omega
    simp only [hdata, Except.ok.injEq, Chunk.mk.injEq, true_and, decide_eq_decide,
      List.length_take, List.length_drop]
    omega

/-! ## The read in words

The same read once more, in numbers of 64 bits, where whatever does not fit has no value. It writes
behind the first `start` bytes of a buffer, so that positions in the buffer are sums too. -/

section
open Words

/-- The room in the buffer that is not filled yet. -/
def room? (start want read : UInt64) : Option UInt64 := do
  let low ← add? start read
  let high ← add? start want
  sub? high low

/-- Reads until `want` bytes are there: how many there are then, and which ones came. -/
def fill? (start want : UInt64) (grants : List Grant) (read : UInt64) (rest : Bytes) :
    Option (UInt64 × Bytes) :=
  if want ≤ read then some (read, [])
  else do
    let room ← room? start want read
    match grants with
    | [] =>
      let n := min room.toNat rest.length
      let read ← add? read (UInt64.ofNat n)
      some (read, rest.take n)
    | .interrupted :: gs => fill? start want gs read rest
    | .bytes n :: gs =>
      let n := min (min (n + 1) room.toNat) rest.length
      let read ← add? read (UInt64.ofNat n)
      let (read, data) ← fill? start want gs read (rest.drop n)
      some (read, rest.take n ++ data)

def readWords? (grants : List Grant) (start offset count : UInt64) (content : Bytes) :
    Option Chunk :=
  let length := UInt64.ofNat content.length
  if length ≤ offset then some ⟨[], true⟩
  else do
    let left ← sub? length offset
    let want := if count ≤ left then count else left
    -- The buffer is made longer, filled, and cut where the reading ended.
    let _ ← add? start want
    let (read, data) ← fill? start want grants 0 (content.drop offset.toNat)
    let _ ← add? start read
    let reached ← add? offset read
    some ⟨data, decide (length ≤ reached)⟩

variable {start want read : UInt64}

theorem exists_room? (hfits : start.toNat + want.toNat < 2 ^ 64) (hread : read.toNat ≤ want.toNat) :
    ∃ room, room? start want read = some room ∧ room.toNat = want.toNat - read.toNat := by
  obtain ⟨low, hlow, hlowNat⟩ := exists_add? (a := start) (b := read) (by omega)
  obtain ⟨high, hhigh, hhighNat⟩ := exists_add? hfits
  obtain ⟨room, hroom, hroomNat⟩ := exists_sub? (a := high) (b := low) (by omega)
  refine ⟨room, ?_, by omega⟩
  simp only [room?, hlow, hhigh, hroom, Option.bind_eq_bind, Option.bind_some]

theorem exists_read_on (read want : UInt64) {n : Nat} (hn : read.toNat + n ≤ want.toNat) :
    ∃ next, add? read (UInt64.ofNat n) = some next ∧ next.toNat = read.toNat + n := by
  have hwant := want.toNat_lt
  have hnat : (UInt64.ofNat n).toNat = n := UInt64.toNat_ofNat_of_lt' (by rw [UInt64.size]; omega)
  obtain ⟨next, hnext, hnextNat⟩ := exists_add? (a := read) (b := UInt64.ofNat n) (by omega)
  exact ⟨next, hnext, by omega⟩

theorem fill?_full (grants : List Grant) (rest : Bytes) (hread : read.toNat ≤ want.toNat)
    (hdone : want ≤ read) :
    fill? start want grants read rest = some (want, rest.take (want.toNat - read.toNat)) := by
  have hall : read = want := UInt64.le_antisymm (UInt64.le_iff_toNat_le.mpr hread) hdone
  rw [hall, Nat.sub_self, List.take_zero, fill?, if_pos (UInt64.le_refl want)]

theorem fill?_eq (start want read : UInt64) (grants : List Grant) (rest : Bytes)
    (hfits : start.toNat + want.toNat < 2 ^ 64) (hread : read.toNat ≤ want.toNat)
    (henough : want.toNat - read.toNat ≤ rest.length) :
    fill? start want grants read rest = some (want, rest.take (want.toNat - read.toNat)) := by
  -- Each read takes from the rest what it adds to the buffer, so that what is missing stays there.
  induction grants generalizing read rest with
  | nil =>
    by_cases hdone : want ≤ read
    · exact fill?_full [] rest hread hdone
    · obtain ⟨room, hroom, hroomNat⟩ := exists_room? hfits hread
      obtain ⟨next, hnext, hnextNat⟩ :=
        exists_read_on read want (n := want.toNat - read.toNat) (by omega)
      have hall : min room.toNat rest.length = want.toNat - read.toNat := by omega
      have hfull : next = want := UInt64.toNat_inj.mp (by omega)
      rw [fill?, if_neg hdone]
      simp only [hroom, hall, hnext, hfull, Option.bind_eq_bind, Option.bind_some]
  | cons g gs ih =>
    by_cases hdone : want ≤ read
    · exact fill?_full (g :: gs) rest hread hdone
    · obtain ⟨room, hroom, hroomNat⟩ := exists_room? hfits hread
      rw [fill?, if_neg hdone]
      cases g with
      | interrupted =>
        simp only [hroom, Option.bind_eq_bind, Option.bind_some]
        exact ih read rest hread henough
      | bytes n =>
        generalize hk : min (min (n + 1) room.toNat) rest.length = k
        obtain ⟨next, hnext, hnextNat⟩ := exists_read_on read want (n := k) (by omega)
        have hlater := ih next (rest.drop k) (by omega) (by rw [List.length_drop]; omega)
        have hsum : want.toNat - read.toNat = k + (want.toNat - next.toNat) := by omega
        simp only [hroom, hk, hnext, hlater, Option.bind_eq_bind, Option.bind_some, hsum,
          List.take_add]

/-- In words the read comes to the same as with unbounded numbers, so nothing runs over. -/
theorem readWords?_eq (grants : List Grant) (offset count : UInt64) {content : Bytes}
    (hstart : start.toNat < 2 ^ 63) (hcontent : content.length < 2 ^ 63) :
    ∃ chunk, readWords? grants start offset count content = some chunk ∧
      (Opened.file content).read grants offset.toNat count.toNat = .ok chunk := by
  refine ⟨_, ?_, read_file grants content offset.toNat count.toNat⟩
  have hlength : (UInt64.ofNat content.length).toNat = content.length :=
    UInt64.toNat_ofNat_of_lt' (by rw [UInt64.size]; omega)
  simp only [readWords?, UInt64.le_iff_toNat_le, hlength]
  split
  · rename_i hpast
    rw [List.drop_eq_nil_of_le hpast, List.take_nil, decide_eq_true (by omega)]
  · obtain ⟨left, hleft, hleftNat⟩ :=
      exists_sub? (a := UInt64.ofNat content.length) (b := offset) (by omega)
    generalize hwant : (if count.toNat ≤ left.toNat then count else left) = want
    have hwantNat : want.toNat = min count.toNat (content.length - offset.toNat) := by
      rw [← hwant]
      split <;> omega
    obtain ⟨high, hhigh, -⟩ := exists_add? (a := start) (b := want) (by omega)
    have hfill := fill?_eq start want 0 grants
      (content.drop offset.toNat) (by omega) (by simp) (by simp; omega)
    obtain ⟨reached, hreached, hreachedNat⟩ := exists_add? (a := offset) (b := want) (by omega)
    have htake : (content.drop offset.toNat).take want.toNat =
        (content.drop offset.toNat).take count.toNat := by
      rw [List.take_eq_take_iff, List.length_drop]
      omega
    simp only [hleft, hwant, hhigh, hfill, hreached, Option.bind_eq_bind, Option.bind_some,
      Option.some.injEq, Chunk.mk.injEq, decide_eq_decide, UInt64.toNat_zero, Nat.sub_zero, htake,
      true_and]
    omega

end

/-! ## One request -/

section
variable {S : Type}

/-- A reader for one directory whose reads may come short. How they go depends on the moment, like
what is stored. -/
def patchyReader (place : String) (base : List (List Char)) (grants : S → List Grant)
    (storage : S → Storage) : Reader S :=
  ⟨place, fun s => readUnder (grants s) base (storage s)⟩

/-- Where every read is done at once, this is the reader for the directory. -/
theorem directoryReader_eq_patchyReader (place : String) (base : List (List Char)) :
    directoryReader place base = patchyReader place base (fun _ => []) id := rfl

/-- A file is stored under a name that is served. -/
def Storage.Serves (s : Storage) (base : List (List Char)) (filename : String) (content : Bytes) :
    Prop :=
  filename.utf8ByteSize ≤ s.longest ∧
    ∃ names, plainNames? filename = some names ∧
      s.open? (base ++ names) (wantsDirectory filename) = some (.file content)

variable {base : List (List Char)} {grants : S → List Grant} {storage : S → Storage} {s : S}
  {filename : String} {content : Bytes}

theorem Storage.Serves.read (h : (storage s).Serves base filename content) (place : String)
    (offset count : Nat) :
    (patchyReader place base grants storage).read s filename offset count =
      .ok ⟨(content.drop offset).take count, decide (content.length ≤ offset + count)⟩ := by
  obtain ⟨hshort, names, hnames, hopen⟩ := h
  change readUnder (grants s) base (storage s) filename offset count = _
  simp only [readUnder, hnames, if_neg (Nat.not_lt.mpr hshort), hopen]
  exact read_file (grants s) content offset count

end

/-- The reply with the first bytes of what is left of a file. -/
def chunkReply (chunk : Nat) (rest : Bytes) : FileReply :=
  { eof := decide (rest.length ≤ chunk), data := rest.take chunk,
    readSize := Int64.ofNat (rest.take chunk).length }

namespace FileService

variable {S : Type}

/-- The most that the reply to a request for `count` bytes carries. -/
def share (f : FileService S) (count : Int64) : Nat := min count.toInt.toNat f.maxChunk.toInt.toNat

theorem one_le_share (f : FileService S) (n : Int64) {count : Int64} (hcount : 1 ≤ count) :
    1 ≤ (f.withMaxChunk n).share count := by
  have hone := Int64.le_iff_toInt_le.mp hcount
  have hcap : 1 ≤ (f.withMaxChunk n).maxChunk := by
    rw [withMaxChunk]
    split
    · exact Int64.le_refl 1
    · rename_i hn
      exact Int64.not_lt.mp hn
  have hcap' := Int64.le_iff_toInt_le.mp hcap
  simp only [Int64.toInt_one] at hone hcap'
  rw [share]
  omega

variable {f : FileService S} {r : FileRequest} {place : String} {base : List (List Char)}
  {grants : S → List Grant} {storage : S → Storage} {s : S} {content : Bytes}

theorem valid_of_range (hcount : 1 ≤ r.count) (hoffset : 0 ≤ r.offset) :
    ¬(r.count ≤ 0 ∨ r.offset < 0) := by
  simp only [Int64.le_iff_toInt_le, Int64.lt_iff_toInt_lt, Int64.toInt_one, Int64.toInt_zero] at *
  omega

theorem handle_in_range {reader : Reader S} (hreader : f.readers.get? r.readerId = some reader)
    (hcount : 1 ≤ r.count) (hoffset : 0 ≤ r.offset) (s : S) :
    f.handle s r = replyOf reader.place r.filename
      (reader.read s r.filename r.offset.toInt.toNat (f.share r.count)) := by
  have hshare : (if f.maxChunk < r.count then f.maxChunk else r.count).toInt.toNat =
      f.share r.count := by
    rw [share]
    split
    · rename_i hlt
      have := Int64.lt_iff_toInt_lt.mp hlt
      omega
    · rename_i hnot
      have := mt Int64.lt_iff_toInt_lt.mpr hnot
      omega
  rw [handle, if_neg (valid_of_range hcount hoffset)]
  simp only [hreader, hshare]

theorem handle_eq_chunkReply {offset : Nat}
    (hreader : f.readers.get? r.readerId = some (patchyReader place base grants storage))
    (hserved : (storage s).Serves base r.filename content) (hcount : 1 ≤ r.count)
    (hoffset : offset < 2 ^ 63) :
    f.handle s { r with offset := Int64.ofNat offset } =
      chunkReply (f.share r.count) (content.drop offset) := by
  have hnat := Int64.toInt_ofNat_of_lt hoffset
  have hvalid : 0 ≤ Int64.ofNat offset := by
    rw [Int64.le_iff_toInt_le, hnat, Int64.toInt_zero]
    omega
  have hend : content.length ≤ offset + f.share r.count ↔
      (content.drop offset).length ≤ f.share r.count := by
    rw [List.length_drop]
    omega
  rw [handle_in_range (r := { r with offset := Int64.ofNat offset }) hreader hcount hvalid]
  simp only [hnat, Int.toNat_natCast, hserved.read, replyOf, chunkReply, hend]

end FileService

/-! ## The whole transfer -/

/-- The loop of a client from its `n`-th request on, and the replies it gets. It ends with the
reply that says that the file has ended. The storage is `stores n` when this request is served. -/
inductive Pulls {S : Type} (f : FileService S) (stores : Nat → S) :
    Nat → FileRequest → List FileReply → Prop
  | ends {n : Nat} {r : FileRequest} (eof : (f.handle (stores n) r).eof = true) :
      Pulls f stores n r [f.handle (stores n) r]
  | goesOn {n : Nat} {r : FileRequest} {later : List FileReply}
      (more : (f.handle (stores n) r).eof = false)
      (rest : Pulls f stores (n + 1)
        { r with offset := r.offset + (f.handle (stores n) r).readSize } later) :
      Pulls f stores n r (f.handle (stores n) r :: later)

namespace Pulls

variable {S : Type} {f : FileService S} {stores : Nat → S} {n : Nat} {r : FileRequest}
  {replies others : List FileReply}

theorem unique (h : Pulls f stores n r replies) (h' : Pulls f stores n r others) :
    others = replies := by
  induction h generalizing others with
  | ends eof =>
    cases h' with
    | ends => rfl
    | goesOn more => rw [eof] at more; cases more
  | goesOn more _ ih =>
    cases h' with
    | ends eof => rw [more] at eof; cases eof
    | goesOn _ rest => rw [ih rest]

/-- With storage at rest and no refusal, these are the replies of a client that would give up after
`rounds` requests. -/
theorem fetch_eq {s : S} (h : Pulls f (fun _ => s) n r replies)
    (hok : ∀ reply ∈ replies, reply.refusal = none) {rounds : Nat}
    (hrounds : replies.length ≤ rounds) : f.fetch s rounds r = replies := by
  induction h generalizing rounds with
  | ends eof =>
    obtain ⟨rounds, rfl⟩ := Nat.exists_eq_add_of_le' hrounds
    simp only [List.length_cons, List.length_nil, Nat.zero_add, FileService.fetch, eof, Bool.true_or,
      if_true]
  | @goesOn n r later more _ ih =>
    rw [List.length_cons] at hrounds
    obtain ⟨rounds, rfl⟩ := Nat.exists_eq_add_of_le' (Nat.le_trans (Nat.le_add_left 1 _) hrounds)
    have hfirst : (f.handle s r).refusal = none := hok _ (List.mem_cons_self ..)
    have hlater : f.fetch s rounds { r with offset := r.offset + (f.handle s r).readSize } = later :=
      ih (fun reply hmem => hok reply (List.mem_cons_of_mem _ hmem)) (by omega)
    simp only [FileService.fetch, more, FileReply.isOk, hfirst, Option.isNone_none, Bool.not_true,
      Bool.or_self, Bool.false_eq_true, if_false, hlater]

end Pulls

/-- The replies carry the file, in chunks that are all full but the last one. -/
structure Rebuilds (content : Bytes) (chunk : Nat) (replies : List FileReply) : Prop where
  length : replies.length = max 1 (content.length ⌈/⌉ chunk)
  data : replies.flatMap (·.data) = content
  ok : ∀ reply ∈ replies, reply.refusal = none
  sizes : ∀ reply ∈ replies, reply.readSize.toInt = reply.data.length ∧ reply.data.length ≤ chunk
  ends : replies.map (·.eof) = List.replicate (replies.length - 1) false ++ [true]

namespace Rebuilds

variable {content : Bytes} {chunk : Nat} {replies : List FileReply}

theorem ceilDiv_eq_succ {n : Nat} (hchunk : 1 ≤ chunk) (h : chunk < n) :
    n ⌈/⌉ chunk = (n - chunk) ⌈/⌉ chunk + 1 := by
  have hsum : n + chunk - 1 = (n - chunk + chunk - 1) + chunk := by omega
  rw [Nat.ceilDiv_eq_add_pred_div, Nat.ceilDiv_eq_add_pred_div, hsum, Nat.add_div_right _ hchunk]

theorem one_le_ceilDiv {n : Nat} (hchunk : 1 ≤ chunk) (h : 1 ≤ n) : 1 ≤ n ⌈/⌉ chunk := by
  rw [Nat.ceilDiv_eq_add_pred_div]
  exact (Nat.one_le_div_iff hchunk).mpr (by omega)

theorem chunkReply_sizes (chunk : Nat) (hcontent : content.length < 2 ^ 63) :
    (chunkReply chunk content).readSize.toInt = (chunkReply chunk content).data.length ∧
      (chunkReply chunk content).data.length ≤ chunk := by
  have hlength : (content.take chunk).length < 2 ^ 63 := by rw [List.length_take]; omega
  exact ⟨Int64.toInt_ofNat_of_lt hlength, List.length_take_le chunk content⟩

theorem last (hchunk : 1 ≤ chunk) (hcontent : content.length < 2 ^ 63) (h : content.length ≤ chunk) :
    Rebuilds content chunk [chunkReply chunk content] where
  length := by
    have hceil : content.length ⌈/⌉ chunk ≤ 1 := by
      rw [ceilDiv_le_iff_le_mul (by omega)]
      omega
    simp only [List.length_singleton]
    omega
  data := by simp [chunkReply, List.take_of_length_le h]
  ok := by simp [chunkReply]
  sizes := by
    rintro reply hmem
    rw [List.mem_singleton.mp hmem]
    exact chunkReply_sizes chunk hcontent
  ends := by simp [chunkReply, h]

theorem cons (hchunk : 1 ≤ chunk) (hcontent : content.length < 2 ^ 63) (h : chunk < content.length)
    (later : Rebuilds (content.drop chunk) chunk replies) :
    Rebuilds content chunk (chunkReply chunk content :: replies) where
  length := by
    have hlater := later.length
    rw [List.length_drop] at hlater
    rw [List.length_cons, hlater, ceilDiv_eq_succ hchunk h]
    have hmore := one_le_ceilDiv hchunk (Nat.sub_pos_of_lt h)
    omega
  data := by
    rw [List.flatMap_cons, later.data]
    exact List.take_append_drop chunk content
  ok := by
    rintro reply hmem
    cases hmem with
    | head => rfl
    | tail _ hmem => exact later.ok reply hmem
  sizes := by
    rintro reply hmem
    cases hmem with
    | head => exact chunkReply_sizes chunk hcontent
    | tail _ hmem => exact later.sizes reply hmem
  ends := by
    obtain ⟨k, hk⟩ : ∃ k, replies.length = k + 1 := Nat.exists_eq_add_of_le' (by
      rw [later.length]
      omega)
    have hmore : (chunkReply chunk content).eof = false := decide_eq_false (by omega)
    rw [List.map_cons, later.ends, List.length_cons, hk, hmore]
    rfl

end Rebuilds

section
variable {S : Type} {f : FileService S} {r : FileRequest} {place : String} {base : List (List Char)}
  {grants : S → List Grant} {storage : S → Storage} {stores : Nat → S} {content : Bytes}

theorem exists_pulls
    (hreader : f.readers.get? r.readerId = some (patchyReader place base grants storage))
    (hserved : ∀ i, (storage (stores i)).Serves base r.filename content) (hcount : 1 ≤ r.count)
    (hshare : 1 ≤ f.share r.count) (hcontent : content.length < 2 ^ 63) (offset n : Nat)
    (hoffset : offset ≤ content.length) :
    ∃ replies, Pulls f stores n { r with offset := Int64.ofNat offset } replies ∧
      Rebuilds (content.drop offset) (f.share r.count) replies := by
  -- The induction is on what is left: each full chunk leaves less.
  induction hleft : content.length - offset using Nat.strong_induction_on generalizing offset n with
  | _ left ih =>
    subst hleft
    have hlength : (content.drop offset).length = content.length - offset := List.length_drop ..
    have hreply := FileService.handle_eq_chunkReply hreader (hserved n) hcount
      (Nat.lt_of_le_of_lt hoffset hcontent)
    by_cases hend : (content.drop offset).length ≤ f.share r.count
    · have heof : (f.handle (stores n) { r with offset := Int64.ofNat offset }).eof = true := by
        rw [hreply]
        exact decide_eq_true hend
      refine ⟨_, Pulls.ends heof, ?_⟩
      rw [hreply]
      exact Rebuilds.last hshare (by omega) hend
    · have hmore : (f.handle (stores n) { r with offset := Int64.ofNat offset }).eof = false := by
        rw [hreply]
        exact decide_eq_false hend
      have hnext : Int64.ofNat offset +
          (f.handle (stores n) { r with offset := Int64.ofNat offset }).readSize =
            Int64.ofNat (offset + f.share r.count) := by
        rw [hreply, chunkReply, List.length_take, Nat.min_eq_left (by omega), Int64.ofNat_add]
      obtain ⟨later, hpulls, hlater⟩ := ih _ (by omega) (offset + f.share r.count) (n + 1)
        (by omega) rfl
      refine ⟨_, Pulls.goesOn hmore (by simpa only [hnext] using hpulls), ?_⟩
      rw [hreply]
      refine Rebuilds.cons hshare (by omega) (by omega) ?_
      rw [List.drop_drop]
      exact hlater

/-- A download ends after as many requests as it takes to fill the file with chunks, one if the file
is empty, and the chunks are the file. Nothing on the way runs over 64 bits. -/
theorem downloads_rebuild_files (maxChunk : Int64) (stores : Nat → S)
    (hreader : f.readers.get? r.readerId = some (patchyReader place base grants storage))
    (hserved : ∀ i, (storage (stores i)).Serves base r.filename content) (hcount : 1 ≤ r.count)
    (hoffset : r.offset = 0) (hcontent : content.length < 2 ^ 63) :
    (∃ replies, Pulls (f.withMaxChunk maxChunk) stores 0 r replies ∧
      (∀ others, Pulls (f.withMaxChunk maxChunk) stores 0 r others → others = replies) ∧
      Rebuilds content ((f.withMaxChunk maxChunk).share r.count) replies ∧
      ∀ s rounds, (∀ i, stores i = s) → replies.length ≤ rounds →
        (f.withMaxChunk maxChunk).fetch s rounds r = replies) ∧
    ∀ (grants : List Grant) (start offset count : UInt64), start.toNat < 2 ^ 63 →
      ∃ chunk, readWords? grants start offset count content = some chunk ∧
        (Opened.file content).read grants offset.toNat count.toNat = .ok chunk := by
  refine ⟨?_, fun grants start offset count hstart =>
    readWords?_eq grants offset count hstart hcontent⟩
  have hshare := f.one_le_share maxChunk hcount
  obtain ⟨replies, hpulls, hrebuilds⟩ := exists_pulls (f := f.withMaxChunk maxChunk) hreader hserved
    hcount hshare hcontent 0 0 (Nat.zero_le _)
  have hzero : { r with offset := Int64.ofNat 0 } = r := by
    rw [show Int64.ofNat 0 = 0 from rfl, ← hoffset]
  rw [hzero] at hpulls
  rw [List.drop_zero] at hrebuilds
  refine ⟨replies, hpulls, fun others => hpulls.unique, hrebuilds, ?_⟩
  intro s rounds hstill hrounds
  have hstores : stores = fun _ => s := funext hstill
  rw [hstores] at hpulls
  exact hpulls.fetch_eq hrebuilds.ok hrounds

end

/-- A directory with one file. -/
def shelf : Storage := (Storage.empty 255).write [['f']] [104, 101, 108, 108, 111]

/-- The first read of the first request is interrupted, and the second one brings one byte. -/
def stutter : Nat → List Grant
  | 0 => [.interrupted, .bytes 0]
  | _ => []

def lender : FileService Nat :=
  ((FileService.ofInitialId 100).add (patchyReader "shelf/" [] stutter fun _ => shelf)).2

theorem downloads_rebuild_files_stuttering :
    shelf.Serves [] "f" [104, 101, 108, 108, 111] ∧
      ∃ replies, Pulls (lender.withMaxChunk 2) id 0 ⟨100, "f", 3, 0, false⟩ replies ∧
        replies.length = 3 ∧ replies.flatMap (·.data) = [104, 101, 108, 108, 111] := by
  have hserved : shelf.Serves [] "f" [104, 101, 108, 108, 111] :=
    ⟨by decide, [['f']], by decide, by decide⟩
  refine ⟨hserved, ?_⟩
  obtain ⟨⟨replies, hpulls, -, hrebuilds, -⟩, -⟩ := downloads_rebuild_files (f := lender)
    (r := ⟨100, "f", 3, 0, false⟩) 2 id rfl (fun _ => hserved) (by decide) rfl (by decide)
  refine ⟨replies, hpulls, ?_, hrebuilds.data⟩
  rw [hrebuilds.length]
  decide

end ClusterNet.Consensus
