import ClusterNet.Proofs.Checksums
import ClusterNet.Proofs.PackedEntries
import Mathlib.Data.List.Perm.Basic

/-!
# Entries that are sealed

The checksum of an entry is the exclusive or of what its parts add. So it changes with a part if and
only if what the part adds does, and a burst of up to four bytes in one part is always seen. It does
not tell where a peer stands: an entry whose peers have changed places passes for what it was.
-/

namespace ClusterNet.Consensus

open Crc32c

variable {e : LogEntry} {l m : List String} {p q : PeerLists} {c : UInt64}

theorem EntryKind.number_injective : Function.Injective EntryKind.number := by
  intro k k' h
  cases k <;> cases k' <;> first | rfl | exact absurd h (by decide)

/-! ## What the parts add -/

namespace LogEntry

/-- What some texts add to a checksum. -/
def textsPart (texts : List String) : UInt64 := foldTexts 0 texts

def dataPart (data : Bytes) : UInt64 := if data.isEmpty then 0 else (Crc32c.checksum data).toUInt64

theorem foldTexts_eq (acc : UInt64) (texts : List String) :
    foldTexts acc texts = acc ^^^ textsPart texts := by
  induction texts generalizing acc with
  | nil => exact UInt64.xor_zero.symm
  | cons s texts ih =>
    have hstep (acc : UInt64) : foldTexts acc (s :: texts) =
        foldTexts (acc ^^^ (Crc32c.checksum (Bytes.ofText s)).toUInt64) texts := rfl
    rw [textsPart, hstep, hstep, ih, ih, UInt64.zero_xor, UInt64.xor_assoc]

theorem textsPart_append (l m : List String) : textsPart (l ++ m) = textsPart l ^^^ textsPart m := by
  rw [← foldTexts_eq]
  exact List.foldl_append

theorem textsPart_cons (s : String) (l : List String) :
    textsPart (s :: l) = (Crc32c.checksum (Bytes.ofText s)).toUInt64 ^^^ textsPart l := by
  rw [← foldTexts_eq, textsPart, foldTexts, List.foldl_cons, UInt64.zero_xor]
  rfl

theorem textsPart_perm (h : l.Perm m) : textsPart l = textsPart m := by
  refine h.foldl_eq' (fun s _ t _ acc => ?_) 0
  ac_rfl

end LogEntry

/-- All peers of a group, list by list. -/
def PeerLists.all (p : PeerLists) : List String := p.peers ++ (p.oldPeers ++ (p.learners ++ p.oldLearners))

namespace LogEntry

theorem computed_eq (e : LogEntry) :
    e.computed = e.kind.number ^^^ e.id.checksum ^^^ textsPart e.peers.all ^^^ dataPart e.data := by
  have hpeers : foldTexts (foldTexts (foldTexts (foldTexts (e.kind.number ^^^ e.id.checksum) e.peers.peers)
      e.peers.oldPeers) e.peers.learners) e.peers.oldLearners =
      e.kind.number ^^^ e.id.checksum ^^^ textsPart e.peers.all := by
    simp only [foldTexts_eq, PeerLists.all, textsPart_append, UInt64.xor_assoc]
  rw [computed, hpeers, dataPart]
  split
  · exact UInt64.xor_zero.symm
  · rfl

theorem isCorrupted_iff (h : e.checksum = some c) : e.isCorrupted = true ↔ c ≠ e.computed := by
  rw [isCorrupted, h]
  exact bne_iff_ne

/-- An entry that has the checksum of another one passes if its parts add up to the same. -/
theorem isCorrupted_iff_parts {e' : LogEntry} (h : e'.checksum = some e.computed) : e'.isCorrupted = true ↔
    e.kind.number ^^^ e.id.checksum ^^^ textsPart e.peers.all ^^^ dataPart e.data ≠
      e'.kind.number ^^^ e'.id.checksum ^^^ textsPart e'.peers.all ^^^ dataPart e'.data := by
  rw [isCorrupted_iff h, computed_eq, computed_eq]

theorem isCorrupted_sealed (e : LogEntry) : e.sealed.isCorrupted = false :=
  Bool.eq_false_iff.mpr fun h => (isCorrupted_iff (e := e.sealed) rfl).mp h rfl

/-- The checksum sees other peers if and only if they add something else. -/
theorem isCorrupted_peers (e : LogEntry) (p : PeerLists) :
    ({ e.sealed with peers := p } : LogEntry).isCorrupted = true ↔ textsPart p.all ≠ textsPart e.peers.all := by
  rw [isCorrupted_iff_parts (e := e) rfl]
  simp only [sealed, ne_eq, UInt64.xor_left_inj, UInt64.xor_right_inj]
  exact not_congr eq_comm

/-! ## One part is damaged -/

/-- One of the texts is hit by a burst. -/
def Struck (l m : List String) : Prop := ∃ before s t after, l = before ++ s :: after ∧ m = before ++ t :: after ∧
  Burst (Bytes.ofText s) (Bytes.ofText t)

theorem Struck.append (h : Struck l m) (before after : List String) :
    Struck (before ++ (l ++ after)) (before ++ (m ++ after)) := by
  obtain ⟨pre, s, t, post, rfl, rfl, hburst⟩ := h
  exact ⟨before ++ pre, s, t, post ++ after, by simp, by simp, hburst⟩

theorem Struck.textsPart_ne (h : Struck l m) : textsPart l ≠ textsPart m := by
  obtain ⟨before, s, t, after, rfl, rfl, hburst⟩ := h
  rw [textsPart_append, textsPart_append, textsPart_cons, textsPart_cons, ne_eq, UInt64.xor_right_inj,
    UInt64.xor_left_inj, UInt32.toUInt64_inj]
  exact hburst.checksum_ne

end LogEntry

/-- One peer is hit, whatever list it is in. -/
inductive PeerLists.Struck (p : PeerLists) : PeerLists → Prop
  | peers {l : List String} (h : LogEntry.Struck p.peers l) : Struck p { p with peers := l }
  | oldPeers {l : List String} (h : LogEntry.Struck p.oldPeers l) : Struck p { p with oldPeers := l }
  | learners {l : List String} (h : LogEntry.Struck p.learners l) : Struck p { p with learners := l }
  | oldLearners {l : List String} (h : LogEntry.Struck p.oldLearners l) : Struck p { p with oldLearners := l }

theorem PeerLists.Struck.all (h : p.Struck q) : LogEntry.Struck p.all q.all := by
  cases h with
  | peers h => exact h.append [] _
  | oldPeers h => exact h.append p.peers _
  | learners h => simpa [PeerLists.all] using h.append (p.peers ++ p.oldPeers) p.oldLearners
  | oldLearners h => simpa [PeerLists.all] using h.append (p.peers ++ (p.oldPeers ++ p.learners)) []

namespace LogEntry

/-- What may befall one part of an entry: a burst of up to four bytes, or another kind or another stored
checksum. -/
inductive Damaged (e : LogEntry) : LogEntry → Prop
  | data {d : Bytes} (h : Burst e.data d) : Damaged e { e with data := d }
  | peer {p : PeerLists} (h : e.peers.Struck p) : Damaged e { e with peers := p }
  | place {i : LogId} (h : Burst e.id.bytes i.bytes) : Damaged e { e with id := i }
  | kind {k : EntryKind} (h : k ≠ e.kind) : Damaged e { e with kind := k }
  | checksum {c : UInt64} (h : e.checksum ≠ some c) : Damaged e { e with checksum := some c }

theorem dataPart_ne {a b : Bytes} (h : Burst a b) : dataPart a ≠ dataPart b := by
  have hlength := h.length_eq
  have ha : a ≠ [] := by
    rintro rfl
    exact h.ne (List.eq_nil_of_length_eq_zero hlength).symm
  have hb : b ≠ [] := by
    rintro rfl
    exact h.ne (List.eq_nil_of_length_eq_zero hlength.symm)
  rw [dataPart, dataPart, if_neg (by simpa using ha), if_neg (by simpa using hb), ne_eq, UInt32.toUInt64_inj]
  exact h.checksum_ne

theorem Damaged.isCorrupted {e' : LogEntry} (h : Damaged e.sealed e') : e'.isCorrupted = true := by
  cases h with
  | data h =>
    rw [isCorrupted_iff_parts (e := e) rfl]
    simp only [sealed, ne_eq, UInt64.xor_right_inj]
    exact dataPart_ne h
  | peer h => exact (isCorrupted_peers e _).mpr h.all.textsPart_ne.symm
  | place h =>
    rw [isCorrupted_iff_parts (e := e) rfl]
    simp only [sealed, ne_eq, UInt64.xor_left_inj, UInt64.xor_right_inj]
    exact fun hsame => h.checksum_ne (UInt32.toUInt64_inj.mp hsame)
  | kind h =>
    rw [isCorrupted_iff_parts (e := e) rfl]
    simp only [sealed, ne_eq, UInt64.xor_left_inj]
    exact fun hsame => h (EntryKind.number_injective hsame).symm
  | @checksum c h =>
    rw [isCorrupted_iff (c := c) rfl]
    exact fun hsame => h (congrArg some hsame.symm)

/-- A sealed entry passes, also when it has been packed and unpacked. It passes no more once one of its
parts is damaged. -/
theorem damage_is_seen :
    (∀ e : LogEntry, e.sealed.isCorrupted = false ∧ ∀ e', Damaged e.sealed e' → e'.isCorrupted = true) ∧
    ∀ (r : AppendRequest) (es : List LogEntry),
      (∀ i e, es[i]? = some e → e.id.index.toNat = r.prevLogIndex.toNat + 1 + i) →
      (∀ e ∈ es, e.data.length < 2 ^ 64) →
      ∃ unpacked, (r.withEntries es).entries? = some unpacked ∧ ∀ (i : Nat) e, es[i]? = some (sealed e) →
        ∃ e', unpacked[i]? = some e' ∧ e' = e.sealed ∧ e'.isCorrupted = false := by
  refine ⟨fun e => ⟨isCorrupted_sealed e, fun _ h => h.isCorrupted⟩, fun r es hindices hlengths => ?_⟩
  exact ⟨es, AppendRequest.entries?_withEntries r hindices hlengths,
    fun i e he => ⟨_, he, rfl, isCorrupted_sealed e⟩⟩

/-- Two voters and a payload. -/
def ballot : LogEntry :=
  ⟨.data, ⟨3, 42⟩, { peers := ["10.0.0.1:8081:0", "10.0.0.2:8081:0"] }, [112, 97, 121, 108, 111, 97, 100], none⟩

theorem damage_is_seen_in_ballot :
    Damaged ballot.sealed { ballot.sealed with data := [112, 65, 121, 76, 111, 97, 100] } ∧
      ({ ballot.sealed with data := [112, 65, 121, 76, 111, 97, 100] } : LogEntry).isCorrupted = true ∧
      ∃ unpacked e', (AppendRequest.withEntries { prevLogIndex := 41 } [ballot.sealed]).entries? = some unpacked ∧
        unpacked[0]? = some e' ∧ e'.isCorrupted = false := by
  obtain ⟨hseen, hpacked⟩ := damage_is_seen
  have hdamaged : Damaged ballot.sealed { ballot.sealed with data := [112, 65, 121, 76, 111, 97, 100] } :=
    .data ⟨by decide, [112], [97, 121, 108], [65, 121, 76], [111, 97, 100], rfl, rfl, rfl, by decide⟩
  have hindex : ∀ i e, [ballot.sealed][i]? = some e →
      e.id.index.toNat = ({ prevLogIndex := 41 } : AppendRequest).prevLogIndex.toNat + 1 + i
    | 0, _, rfl => rfl
  obtain ⟨unpacked, hentries, hpasses⟩ := hpacked { prevLogIndex := 41 } [ballot.sealed] hindex (by decide)
  obtain ⟨e', he', -, hsound⟩ := hpasses 0 ballot rfl
  exact ⟨hdamaged, (hseen ballot).2 _ hdamaged, unpacked, e', hentries, he', hsound⟩

end LogEntry

/-! ## Peers change places -/

/-- The same peers, perhaps in another order or in other lists. -/
def PeerLists.Rearranged (p q : PeerLists) : Prop := q.all.Perm p.all

namespace LogEntry

/-- All byte strings whose checksums go into the one of an entry. -/
def buffers (e : LogEntry) : List Bytes := e.id.bytes :: e.data :: e.peers.all.map Bytes.ofText

def CollisionFree (bs : List Bytes) : Prop := ∀ a ∈ bs, ∀ b ∈ bs, Crc32c.checksum a = Crc32c.checksum b → a = b

instance (bs : List Bytes) : Decidable (CollisionFree bs) := inferInstanceAs (Decidable (∀ a ∈ bs, ∀ b ∈ bs, _))

theorem isCorrupted_rearranged (h : e.peers.Rearranged p) :
    ({ e.sealed with peers := p } : LogEntry).isCorrupted = false := by
  rw [Bool.eq_false_iff, ne_eq, isCorrupted_peers, not_not]
  exact textsPart_perm h

/-- Two voters. -/
def voters : LogEntry :=
  ⟨.configuration, ⟨3, 42⟩, { peers := ["10.0.0.1:8081:0", "10.0.0.2:8081:0"] }, [], none⟩

/-- The second voter is a learner now. -/
def demoted : PeerLists := { peers := ["10.0.0.1:8081:0"], learners := ["10.0.0.2:8081:0"] }

/-- A voter can be made a learner without a trace, though no checksums are equal that should not be. -/
theorem a_demoted_voter_passes : voters.peers.Rearranged demoted ∧ demoted ≠ voters.peers ∧
    CollisionFree voters.buffers ∧ ({ voters.sealed with peers := demoted } : LogEntry).isCorrupted = false :=
  ⟨List.Perm.refl _, by decide, by decide +kernel, isCorrupted_rearranged (List.Perm.refl _)⟩

/-- The checksum tells which peers there are, and not where they stand. Where one is exchanged for
another one, and whatever else changes places, this is seen if the two have different checksums. -/
theorem rearranged_peers_pass (e : LogEntry) (p : PeerLists) :
    (e.peers.Rearranged p → ({ e.sealed with peers := p } : LogEntry).isCorrupted = false) ∧
    ∀ s t rest, e.peers.all.Perm (s :: rest) → p.all.Perm (t :: rest) →
      (({ e.sealed with peers := p } : LogEntry).isCorrupted = true ↔
        Crc32c.checksum (Bytes.ofText s) ≠ Crc32c.checksum (Bytes.ofText t)) := by
  refine ⟨isCorrupted_rearranged, fun s t rest hs ht => ?_⟩
  rw [isCorrupted_peers, textsPart_perm hs, textsPart_perm ht, textsPart_cons, textsPart_cons, ne_eq,
    UInt64.xor_left_inj, UInt32.toUInt64_inj]
  exact not_congr eq_comm

/-- Both voters in the other order, and both in another list with one of them exchanged. -/
theorem rearranged_peers_pass_voters :
    voters.peers.Rearranged { peers := ["10.0.0.2:8081:0", "10.0.0.1:8081:0"] } ∧
      ({ voters.sealed with peers := { peers := ["10.0.0.2:8081:0", "10.0.0.1:8081:0"] } } :
        LogEntry).isCorrupted = false ∧
      ({ voters.sealed with peers := { oldPeers := ["10.0.0.3:8081:0", "10.0.0.1:8081:0"] } } :
        LogEntry).isCorrupted = true := by
  have hswapped : voters.peers.Rearranged { peers := ["10.0.0.2:8081:0", "10.0.0.1:8081:0"] } :=
    List.Perm.swap ..
  refine ⟨hswapped, (rearranged_peers_pass voters _).1 hswapped, ?_⟩
  refine ((rearranged_peers_pass voters _).2 "10.0.0.2:8081:0" "10.0.0.3:8081:0" ["10.0.0.1:8081:0"]
    (List.Perm.swap ..) (List.Perm.refl _)).mpr ?_
  decide +kernel

end LogEntry

end ClusterNet.Consensus
