import ClusterNet.Consensus.Packing
import ClusterNet.Proofs.Documents
import ClusterNet.Proofs.Words

/-!
# Entries that are packed and unpacked

The payloads of a request stand one behind the other, and each header tells how far its own one
goes. Unpacking is possible if the headers ask for no more than there is, and gives each entry its
slice. What has been packed is unpacked as it was. The indices count up from the one before the
first entry, as long as there are indices to count with: behind the last one there is no result.
-/

namespace ClusterNet.Consensus

namespace EntryHeader

def span (hs : List EntryHeader) : Nat := (hs.map (·.dataLength.toNat)).sum

@[simp] theorem span_nil : span [] = 0 := rfl

@[simp] theorem span_cons (h : EntryHeader) (hs : List EntryHeader) :
    span (h :: hs) = h.dataLength.toNat + span hs := rfl

/-- The entry that a header tells of. -/
def entry (h : EntryHeader) (index : UInt64) (data : Bytes) : LogEntry :=
  ⟨h.kind, ⟨h.term, index⟩, h.peers, data, h.checksum⟩

end EntryHeader

namespace AppendRequest

open EntryHeader

/-! ## Unpacking -/

/-- The payload of the `i`-th header. -/
def slice (data : Bytes) (hs : List EntryHeader) (i : Nat) : Bytes :=
  data.extract (span (hs.take i)) (span (hs.take (i + 1)))

theorem slice_cons_zero (data : Bytes) (h : EntryHeader) (hs : List EntryHeader) :
    slice data (h :: hs) 0 = data.take h.dataLength.toNat := by
  simp [slice, List.extract_eq_take_drop]

theorem slice_cons_succ (data : Bytes) (h : EntryHeader) (hs : List EntryHeader) (i : Nat) :
    slice data (h :: hs) (i + 1) = slice (data.drop h.dataLength.toNat) hs i := by
  simp only [slice, List.extract_eq_take_drop, List.take_succ_cons, span_cons, List.drop_drop,
    Nat.add_sub_add_left]

theorem add_one_add_ofNat (index : UInt64) (i : Nat) :
    index + 1 + UInt64.ofNat i = index + UInt64.ofNat (i + 1) := by
  rw [UInt64.ofNat_add, UInt64.add_assoc, UInt64.add_comm 1]
  rfl

section
variable {u : Unpacking} {e : LogEntry} {es : List LogEntry}

@[simp] theorem Unpacking.cons_eq_entries_iff :
    u.cons e = .entries es ↔ ∃ rest, u = .entries rest ∧ e :: rest = es := by
  cases u <;> simp [cons]

@[simp] theorem Unpacking.cons_eq_overflow_iff : u.cons e = .overflow ↔ u = .overflow := by
  cases u <;> simp [cons]

end

theorem toNat_add_one {prev : UInt64} (h : prev.toNat + 1 ≠ 18446744073709551616) :
    (prev + 1).toNat = prev.toNat + 1 := by
  have hprev := prev.toNat_lt
  rw [UInt64.toNat_add, UInt64.toNat_one]
  omega

/-- Entries are taken out if there are bytes and indices enough, and each then has its slice. -/
theorem unpack_eq_entries_iff {prev : UInt64} {data : Bytes} {hs : List EntryHeader}
    {es : List LogEntry} :
    unpack prev data hs = .entries es ↔
      span hs ≤ data.length ∧ prev.toNat + hs.length < 2 ^ 64 ∧
        hs.mapIdx (fun i h => h.entry (prev + 1 + UInt64.ofNat i) (slice data hs i)) = es := by
  induction hs generalizing prev data es with
  | nil =>
    have hprev := prev.toNat_lt
    simpa [unpack] using fun _ => hprev
  | cons h hs ih =>
    rw [unpack, UInt64.size, span_cons, List.length_cons]
    split
    · exact iff_of_false nofun fun h => by omega
    · split
      · exact iff_of_false nofun fun h => by omega
      · rename_i hlast
        have hfirst : prev + 1 + UInt64.ofNat 0 = prev + 1 := UInt64.add_zero _
        simp only [Unpacking.cons_eq_entries_iff, ih, List.length_drop, toNat_add_one hlast,
          List.mapIdx_cons, hfirst, slice_cons_zero, slice_cons_succ, ← add_one_add_ofNat, entry]
        constructor
        · rintro ⟨rest, ⟨hspan, hindices, hrest⟩, rfl⟩
          exact ⟨by omega, by omega, by rw [← hrest]⟩
        · rintro ⟨hspan, hindices, rfl⟩
          exact ⟨_, ⟨by omega, by omega, rfl⟩, rfl⟩

/-- An index runs over if that many entries have their payload. -/
theorem unpack_eq_overflow_iff {prev : UInt64} {data : Bytes} {hs : List EntryHeader} :
    unpack prev data hs = .overflow ↔
      ∃ n ≤ hs.length, span (hs.take n) ≤ data.length ∧ 2 ^ 64 ≤ prev.toNat + n := by
  -- To run over takes one entry at least, as `prev` is an index, and what follows has one less to go.
  induction hs generalizing prev data with
  | nil =>
    have hprev := prev.toNat_lt
    refine iff_of_false nofun ?_
    rintro ⟨n, hn, -, hover⟩
    rw [List.length_nil] at hn
    omega
  | cons h hs ih =>
    have hprev := prev.toNat_lt
    rw [unpack, UInt64.size]
    split
    · refine iff_of_false nofun ?_
      rintro ⟨n, -, hfits, hover⟩
      obtain ⟨n, rfl⟩ : ∃ m, n = m + 1 := Nat.exists_eq_add_of_le' (by omega)
      rw [List.take_succ_cons, span_cons] at hfits
      omega
    · split
      · refine iff_of_true rfl ⟨1, by simp, ?_, by omega⟩
        simp only [List.take_succ_cons, List.take_zero, span_cons, span_nil]
        omega
      · rename_i hlast
        rw [Unpacking.cons_eq_overflow_iff, ih, List.length_drop, toNat_add_one hlast]
        constructor
        · rintro ⟨n, hn, hspan, hover⟩
          refine ⟨n + 1, by simpa using hn, ?_, by omega⟩
          rw [List.take_succ_cons, span_cons]
          omega
        · rintro ⟨n, hn, hspan, hover⟩
          obtain ⟨n, rfl⟩ : ∃ m, n = m + 1 := Nat.exists_eq_add_of_le' (by omega)
          rw [List.take_succ_cons, span_cons] at hspan
          exact ⟨n, by simpa using hn, by omega, by omega⟩

variable {r : AppendRequest} {es : List LogEntry}

theorem unpacked_eq_entries_iff :
    r.unpacked = .entries es ↔ span r.headers ≤ r.data.length ∧
      r.prevLogIndex.toNat + r.headers.length < 2 ^ 64 ∧
      r.headers.mapIdx (fun i h =>
        h.entry (r.prevLogIndex + 1 + UInt64.ofNat i) (slice r.data r.headers i)) = es :=
  unpack_eq_entries_iff

theorem unpacked_eq_overflow_iff :
    r.unpacked = .overflow ↔ ∃ n ≤ r.headers.length,
      span (r.headers.take n) ≤ r.data.length ∧ 2 ^ 64 ≤ r.prevLogIndex.toNat + n :=
  unpack_eq_overflow_iff

/-- Where there are indices enough, only bytes can be missing. -/
theorem unpacked_eq_short_iff (hindices : r.prevLogIndex.toNat + r.headers.length < 2 ^ 64) :
    r.unpacked = .short ↔ r.data.length < span r.headers := by
  cases hunpacked : r.unpacked with
  | entries es =>
    have henough := (unpacked_eq_entries_iff.mp hunpacked).1
    exact iff_of_false nofun (by omega)
  | short =>
    refine iff_of_true rfl (Nat.not_le.mp fun henough => ?_)
    cases hunpacked.symm.trans (unpacked_eq_entries_iff.mpr ⟨henough, hindices, rfl⟩)
  | overflow =>
    obtain ⟨n, hn, -, hover⟩ := unpacked_eq_overflow_iff.mp hunpacked
    omega

theorem entries?_of_unpacked (h : r.unpacked = .entries es) : r.entries? = some es := by
  rw [entries?, h]

theorem length_of_unpacked (h : r.unpacked = .entries es) : es.length = r.headers.length := by
  rw [← (unpacked_eq_entries_iff.mp h).2.2, List.length_mapIdx]

theorem getElem?_of_unpacked (h : r.unpacked = .entries es) (i : Nat) :
    es[i]? = r.headers[i]?.map fun header =>
      header.entry (r.prevLogIndex + 1 + UInt64.ofNat i) (slice r.data r.headers i) := by
  rw [← (unpacked_eq_entries_iff.mp h).2.2, List.getElem?_mapIdx]

theorem span_take_succ {hs : List EntryHeader} {i : Nat} {header : EntryHeader}
    (h : hs[i]? = some header) : span (hs.take (i + 1)) = span (hs.take i) + header.dataLength.toNat := by
  rw [List.take_add_one, h, span, span, List.map_append, List.sum_append]
  simp

theorem span_take_le (hs : List EntryHeader) (n : Nat) : span (hs.take n) ≤ span hs := by
  conv_rhs => rw [← List.take_append_drop n hs]
  rw [span, span, List.map_append, List.sum_append]
  exact Nat.le_add_right ..

theorem length_slice {hs : List EntryHeader} {i : Nat} {header : EntryHeader} {data : Bytes}
    (h : hs[i]? = some header) (henough : span hs ≤ data.length) :
    (slice data hs i).length = header.dataLength.toNat := by
  have hend := span_take_succ h
  have hinside := span_take_le hs (i + 1)
  rw [slice, List.extract_eq_take_drop, List.length_take, List.length_drop]
  omega

theorem toNat_index (prev : UInt64) {i : Nat} (h : prev.toNat + 1 + i < 2 ^ 64) :
    (prev + 1 + UInt64.ofNat i).toNat = prev.toNat + 1 + i := by
  have hi : (UInt64.ofNat i).toNat = i := UInt64.toNat_ofNat_of_lt' (by rw [UInt64.size]; omega)
  rw [UInt64.toNat_add, UInt64.toNat_add, hi, UInt64.toNat_one]
  omega

/-- What the entries of a request are: each is what its header says, and the payloads are the
slices of the data from its start, one behind the other. -/
structure Unpacked (r : AppendRequest) (es : List LogEntry) : Prop where
  length : es.length = r.headers.length
  entry : ∀ i header, r.headers[i]? = some header → ∃ e, es[i]? = some e ∧
    e = header.entry e.id.index (slice r.data r.headers i) ∧
    e.data.length = header.dataLength.toNat ∧ e.id.index.toNat = r.prevLogIndex.toNat + 1 + i

theorem unpacked_of_eq_entries (h : r.unpacked = .entries es) : Unpacked r es where
  length := length_of_unpacked h
  entry i header hheader := by
    obtain ⟨henough, hindices, -⟩ := unpacked_eq_entries_iff.mp h
    have hi := (List.getElem?_eq_some_iff.mp hheader).1
    have hlength := length_slice hheader henough
    have hindex := toNat_index r.prevLogIndex (i := i) (by omega)
    exact ⟨_, by rw [getElem?_of_unpacked h, hheader]; rfl, rfl, hlength, hindex⟩

/-! ## Packing -/

theorem unpack_pack {es : List LogEntry} {prev : UInt64}
    (hindices : ∀ i e, es[i]? = some e → e.id.index.toNat = prev.toNat + 1 + i)
    (hlengths : ∀ e ∈ es, e.data.length < 2 ^ 64) :
    unpack prev (es.flatMap (·.data)) (es.map LogEntry.header) = .entries es := by
  induction es generalizing prev with
  | nil => rfl
  | cons e es ih =>
    have hfirst : e.id.index.toNat = prev.toNat + 1 := hindices 0 e rfl
    have hlast : prev.toNat + 1 ≠ 18446744073709551616 := by
      have hfits := e.id.index.toNat_lt
      omega
    have hindex : e.id.index = prev + 1 := by
      rw [← UInt64.toNat_inj, hfirst, toNat_add_one hlast]
    have hlength : e.header.dataLength.toNat = e.data.length :=
      UInt64.toNat_ofNat_of_lt' (hlengths e (List.mem_cons_self ..))
    have hrest : unpack (prev + 1) (es.flatMap (·.data)) (es.map LogEntry.header) = .entries es := by
      refine ih (fun i e' he => ?_) fun e' he => hlengths e' (List.mem_cons_of_mem _ he)
      rw [hindices (i + 1) e' he, toNat_add_one hlast]
      omega
    rw [List.map_cons, List.flatMap_cons, unpack, UInt64.size, hlength, if_neg (by simp), if_neg hlast,
      List.drop_left, List.take_left, hrest, ← hindex]
    rfl

theorem unpacked_withEntries (r : AppendRequest)
    (hindices : ∀ i e, es[i]? = some e → e.id.index.toNat = r.prevLogIndex.toNat + 1 + i)
    (hlengths : ∀ e ∈ es, e.data.length < 2 ^ 64) : (r.withEntries es).unpacked = .entries es :=
  unpack_pack hindices hlengths

theorem entries?_withEntries (r : AppendRequest)
    (hindices : ∀ i e, es[i]? = some e → e.id.index.toNat = r.prevLogIndex.toNat + 1 + i)
    (hlengths : ∀ e ∈ es, e.data.length < 2 ^ 64) : (r.withEntries es).entries? = some es :=
  entries?_of_unpacked (unpacked_withEntries r hindices hlengths)

/-! ## Unpacking in words

The same unpacking once more, with an offset that runs through the data and in numbers of 64 bits.
Lengths that do not add up to one are refused, as more than there can be. Indices are counted from
the first entry, and nothing guards them. -/

section
open Words

def index? (r : AppendRequest) (i : Nat) : Option UInt64 := do
  let first ← add? r.prevLogIndex 1
  add? first (UInt64.ofNat i)

/-- Takes out the entries from the `i`-th one on, whose payload starts at `offset`. -/
def walk (r : AppendRequest) : (i : Nat) → (offset : UInt64) → List EntryHeader → Unpacking
  | _, _, [] => .entries []
  | i, offset, h :: hs =>
    match add? offset h.dataLength with
    | none => .short
    | some stop =>
      if r.data.length < stop.toNat then .short
      else match r.index? i with
        | none => .overflow
        | some index =>
          (walk r (i + 1) stop hs).cons (h.entry index (r.data.extract offset.toNat stop.toNat))

def walked (r : AppendRequest) : Unpacking := r.walk 0 0 r.headers

variable {i : Nat} {offset prev : UInt64} {hs : List EntryHeader}

theorem index?_eq_none_iff (hi : i < 2 ^ 64) :
    r.index? i = none ↔ 2 ^ 64 ≤ r.prevLogIndex.toNat + i + 1 := by
  have hnat : (UInt64.ofNat i).toNat = i := UInt64.toNat_ofNat_of_lt' hi
  simp only [index?, Option.bind_eq_bind]
  cases hfirst : add? r.prevLogIndex 1 with
  | none =>
    have hover := add?_eq_none_iff.mp hfirst
    rw [UInt64.toNat_one] at hover
    exact iff_of_true rfl (by omega)
  | some first =>
    have hsum := add?_eq_some_iff.mp hfirst
    rw [UInt64.toNat_one] at hsum
    rw [Option.bind_some, add?_eq_none_iff, hnat, hsum]
    omega

theorem toNat_of_index? {index : UInt64} (hi : i < 2 ^ 64) (h : r.index? i = some index) :
    index.toNat = r.prevLogIndex.toNat + 1 + i := by
  obtain ⟨first, hfirst, hindex⟩ := Option.bind_eq_some_iff.mp h
  rw [add?_eq_some_iff.mp hindex, add?_eq_some_iff.mp hfirst, UInt64.toNat_one,
    UInt64.toNat_ofNat_of_lt' hi]

theorem walk_eq_unpack (hdata : r.data.length < 2 ^ 64)
    (hprev : prev.toNat = r.prevLogIndex.toNat + i) (hoffset : offset.toNat ≤ r.data.length) :
    r.walk i offset hs = unpack prev (r.data.drop offset.toNat) hs := by
  -- What is behind `offset` is what is left to unpack. A sum of lengths that does not fit asks for
  -- more data than there is, so that both refuse the same headers.
  induction hs generalizing i offset prev with
  | nil => rfl
  | cons header hs ih =>
    have hi : i < 2 ^ 64 := by
      have := prev.toNat_lt
      omega
    rw [walk, unpack, UInt64.size, List.length_drop]
    cases hstop : add? offset header.dataLength with
    | none =>
      have hover := add?_eq_none_iff.mp hstop
      exact (if_pos (by omega)).symm
    | some stop =>
      have hsum := add?_eq_some_iff.mp hstop
      by_cases hshort : r.data.length < stop.toNat
      · exact (if_pos hshort).trans (if_pos (by omega)).symm
      · have henough : ¬r.data.length - offset.toNat < header.dataLength.toNat := by omega
        simp only [if_neg hshort, if_neg henough]
        cases hindex : r.index? i with
        | none =>
          have hover := (index?_eq_none_iff hi).mp hindex
          exact (if_pos (by have := prev.toNat_lt; omega)).symm
        | some index =>
          have hnat := toNat_of_index? hi hindex
          have hlast : prev.toNat + 1 ≠ 18446744073709551616 := by
            have := index.toNat_lt
            omega
          have hnext := toNat_add_one hlast
          have hsame : index = prev + 1 := UInt64.toNat_inj.mp (by omega)
          have hpayload : r.data.extract offset.toNat stop.toNat =
              (r.data.drop offset.toNat).take header.dataLength.toNat := by
            rw [List.extract_eq_take_drop, hsum, Nat.add_sub_cancel_left]
          have hrest : r.walk (i + 1) stop hs = unpack (prev + 1) (r.data.drop stop.toNat) hs :=
            ih (by omega) (Nat.not_lt.mp hshort)
          rw [if_neg hlast, List.drop_drop, ← hsum, ← hrest, hsame, hpayload]
          rfl

theorem walked_eq_unpacked (hdata : r.data.length < 2 ^ 64) : r.walked = r.unpacked :=
  walk_eq_unpack hdata (Nat.add_zero _).symm (Nat.zero_le _)

end

/-! ## Main results -/

/-- Packed entries are taken out as they were. Whatever the headers of a request ask for, they are
refused if they ask for more than there is, and else each entry has its slice of the data. The
offset that runs through the data never runs over. -/
theorem entries_are_carried :
    (∀ (r : AppendRequest) (es : List LogEntry),
      (∀ i e, es[i]? = some e → e.id.index.toNat = r.prevLogIndex.toNat + 1 + i) →
      (∀ e ∈ es, e.data.length < 2 ^ 64) → (r.withEntries es).unpacked = .entries es) ∧
    (∀ r : AppendRequest, r.prevLogIndex.toNat + r.headers.length < 2 ^ 64 →
      (r.unpacked = .short ↔ r.data.length < span r.headers) ∧
      (span r.headers ≤ r.data.length → ∃ es, r.unpacked = .entries es ∧ Unpacked r es)) ∧
    (∀ r : AppendRequest, r.data.length < 2 ^ 64 → r.walked = r.unpacked) := by
  refine ⟨fun r _ => unpacked_withEntries r, fun r hindices => ?_, fun _ => walked_eq_unpacked⟩
  refine ⟨unpacked_eq_short_iff hindices, fun henough => ?_⟩
  have hentries := unpacked_eq_entries_iff.mpr ⟨henough, hindices, rfl⟩
  exact ⟨_, hentries, unpacked_of_eq_entries hentries⟩

/-- Three entries behind the tenth: sealed with a payload, with peers but no payload, and at the end
of the data. -/
def cargo : List LogEntry :=
  [LogEntry.sealed ⟨.data, ⟨2, 11⟩, {}, [97, 98, 99], none⟩,
    ⟨.configuration, ⟨2, 12⟩, { peers := ["p"], oldLearners := ["q"] }, [], none⟩,
    ⟨.data, ⟨3, 13⟩, {}, [100, 101], some 7⟩]

/-- Asks for a byte more than there is, by way of a length that no sum can hold. -/
def greedy : AppendRequest :=
  { headers := [{ dataLength := 1 }, { dataLength := 18446744073709551615 }], data := [97] }

theorem entries_are_carried_three :
    (AppendRequest.withEntries { prevLogIndex := 10 } cargo).unpacked = .entries cargo ∧
      greedy.unpacked = .short ∧ greedy.walked = .short := by
  obtain ⟨hpack, hunpack, hwalk⟩ := entries_are_carried
  have hindices : ∀ i e, cargo[i]? = some e → e.id.index.toNat = (10 : UInt64).toNat + 1 + i
    | 0, _, rfl | 1, _, rfl | 2, _, rfl => rfl
  have hgreedy := (hunpack greedy (by decide)).1.mpr (by decide)
  exact ⟨hpack { prevLogIndex := 10 } cargo hindices (by decide), hgreedy,
    (hwalk greedy (by decide)).trans hgreedy⟩

/-- The indices of some entries go up from the one before them. -/
def Ascends (prev : UInt64) (es : List LogEntry) : Prop :=
  (prev :: es.map (·.id.index)).Pairwise (· < ·)

theorem toNat_index_of_unpacked (h : r.unpacked = .entries es) {i : Nat} (hi : i < es.length) :
    es[i].id.index.toNat = r.prevLogIndex.toNat + 1 + i := by
  have hunpacked := unpacked_of_eq_entries h
  have hheader := List.getElem?_eq_getElem (hunpacked.length ▸ hi)
  obtain ⟨e, he, -, -, hindex⟩ := hunpacked.entry i _ hheader
  rw [List.getElem?_eq_getElem hi] at he
  rwa [Option.some.inj he]

theorem ascends_of_unpacked (h : r.unpacked = .entries es) : Ascends r.prevLogIndex es := by
  refine List.pairwise_cons.mpr ⟨fun index hmem => ?_, List.pairwise_iff_getElem.mpr ?_⟩
  · obtain ⟨e, he, rfl⟩ := List.mem_map.mp hmem
    obtain ⟨i, hi, rfl⟩ := List.getElem_of_mem he
    rw [UInt64.lt_iff_toNat_lt, toNat_index_of_unpacked h hi]
    omega
  · intro i j hi hj hij
    rw [List.length_map] at hi hj
    rw [List.getElem_map, List.getElem_map, UInt64.lt_iff_toNat_lt, toNat_index_of_unpacked h hi,
      toNat_index_of_unpacked h hj]
    omega

/-- At the top of the log: the entry would have to follow the last index there is. -/
def topmost : AppendRequest :=
  { prevLogIndex := 18446744073709551615, headers := [{ term := 1, kind := .data, dataLength := 1 }],
    data := [97] }

/-- A peer can ask for an index that there is not. It is then not refused, and gets no entries. -/
theorem the_last_index_runs_over :
    (∃ payload, Json.Form.ofBytes? payload = some topmost) ∧ topmost.walked = .overflow ∧
      ¬(topmost.unpacked = .short ∨
        ∃ es, topmost.unpacked = .entries es ∧ Ascends topmost.prevLogIndex es) := by
  have hover : topmost.unpacked = .overflow := by decide
  refine ⟨⟨_, faithful_appendRequest.ofBytes?_bytes topmost⟩, by decide, ?_⟩
  rintro (hshort | ⟨es, hentries, -⟩)
  · cases hover.symm.trans hshort
  · cases hover.symm.trans hentries

/-- An index runs over exactly if there is an entry with a payload for which there is no index.
The indices of entries that are taken out go up. -/
theorem indices_ascend_to_the_last (r : AppendRequest) :
    (r.unpacked = .overflow ↔ ∃ n ≤ r.headers.length,
      span (r.headers.take n) ≤ r.data.length ∧ 2 ^ 64 ≤ r.prevLogIndex.toNat + n) ∧
    (∀ es, r.unpacked = .entries es → Ascends r.prevLogIndex es) :=
  ⟨unpacked_eq_overflow_iff, fun _ => ascends_of_unpacked⟩

/-- One place below the top, the last index there is can still be given. -/
example : ({ topmost with prevLogIndex := 18446744073709551614 } : AppendRequest).unpacked =
    .entries [⟨.data, ⟨1, 18446744073709551615⟩, {}, [97], none⟩] := by decide

end AppendRequest

end ClusterNet.Consensus
