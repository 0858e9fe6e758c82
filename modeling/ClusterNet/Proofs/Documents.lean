import ClusterNet.Consensus.Message
import ClusterNet.Proofs.Announcements

/-!
# Messages survive their text

Every message that is carried as a document is read back as it was. A payload goes through base 64,
a group of three bytes at a time. A record is read by the names of its fields, so it is enough that
no name stands twice, and that what is left out is what a missing field stands for.
-/

namespace ClusterNet

/-! ## Base 64 -/

namespace Base64

theorem value?_digit {n : Nat} (h : n < 64) : value? (digit n) = some n := by
  have hall : ∀ n < 64, value? (digit n) = some n := by decide
  exact hall n h

theorem digit_ne_padding {n : Nat} (h : n < 64) : digit n ≠ '=' := by
  have hall : ∀ n < 64, digit n ≠ '=' := by decide
  exact hall n h

theorem ofNat_eq {n : Nat} {a : UInt8} (h : n = a.toNat) : UInt8.ofNat n = a := by
  rw [h, UInt8.ofNat_toNat]

theorem encodeOnto_eq : ∀ (b : Bytes) (done : List Char), encodeOnto done b = encodeOnto [] b ++ done
  | [], done => rfl
  | [a], done => rfl
  | [a, b], done => rfl
  | a :: b :: c :: rest, done => by
    rw [encodeOnto, encodeOnto, encodeOnto_eq rest, encodeOnto_eq rest (_ :: _)]
    simp

theorem decodeOnto_four {p q r s : Nat} (hp : p < 64) (hq : q < 64) (hr : r < 64) (hs : s < 64)
    (done : Bytes) (rest : List Char) :
    decodeOnto done (digit p :: digit q :: digit r :: digit s :: rest) =
      decodeOnto (UInt8.ofNat (r % 4 * 64 + s) :: UInt8.ofNat (q % 16 * 16 + r / 4) ::
        UInt8.ofNat (p * 4 + q / 16) :: done) rest := by
  rw [decodeOnto, value?_digit hp, value?_digit hq, value?_digit hr, value?_digit hs]
  · intro _ h
    exact absurd h (digit_ne_padding hs)
  · intro h
    exact absurd h (digit_ne_padding hs)

theorem decodeOnto_three {p q r : Nat} (hp : p < 64) (hq : q < 64) (hr : r < 64) (hzero : r % 4 = 0)
    (done : Bytes) :
    decodeOnto done [digit p, digit q, digit r, '='] =
      some (UInt8.ofNat (q % 16 * 16 + r / 4) :: UInt8.ofNat (p * 4 + q / 16) :: done) := by
  rw [decodeOnto, value?_digit hp, value?_digit hq, value?_digit hr]
  · exact if_pos hzero
  · exact digit_ne_padding hr

theorem decodeOnto_two {p q : Nat} (hp : p < 64) (hq : q < 64) (hzero : q % 16 = 0) (done : Bytes) :
    decodeOnto done [digit p, digit q, '=', '='] = some (UInt8.ofNat (p * 4 + q / 16) :: done) := by
  rw [decodeOnto, value?_digit hp, value?_digit hq]
  exact if_pos hzero

/-- Bytes are read back group by group. The bits that a last short group leaves open are zero. -/
theorem decodeOnto_encodeOnto : ∀ b done : Bytes,
    decodeOnto done (encodeOnto [] b).reverse = some (b.reverse ++ done)
  | [], done => rfl
  | [a], done => by
    have ha := a.toNat_lt
    have hfirst : UInt8.ofNat (a.toNat / 4 * 4 + a.toNat % 4 * 16 / 16) = a := ofNat_eq (by omega)
    change decodeOnto done [digit (a.toNat / 4), digit (a.toNat % 4 * 16), '=', '='] = _
    rw [decodeOnto_two (by omega) (by omega) (by omega), hfirst]
    rfl
  | [a, b], done => by
    have ha := a.toNat_lt
    have hb := b.toNat_lt
    change decodeOnto done [digit ((a.toNat * 256 + b.toNat) / 1024),
      digit ((a.toNat * 256 + b.toNat) / 16 % 64), digit ((a.toNat * 256 + b.toNat) % 16 * 4), '='] = _
    rw [decodeOnto_three (by omega) (by omega) (by omega) (by omega), ofNat_eq (a := b) (by omega),
      ofNat_eq (a := a) (by omega)]
    rfl
  | a :: b :: c :: rest, done => by
    have ha := a.toNat_lt
    have hb := b.toNat_lt
    have hc := c.toNat_lt
    rw [encodeOnto, encodeOnto_eq, List.reverse_append]
    simp only [List.reverse_cons, List.reverse_nil, List.nil_append, List.cons_append]
    rw [decodeOnto_four (by omega) (by omega) (by omega) (by omega), decodeOnto_encodeOnto rest,
      ofNat_eq (a := c) (by omega), ofNat_eq (a := b) (by omega), ofNat_eq (a := a) (by omega)]
    simp

theorem decode?_encode (b : Bytes) : decode? (encode b) = some b := by
  rw [decode?, encode, String.toList_ofList, decodeOnto_encodeOnto, List.append_nil, Option.map_some,
    List.reverse_reverse]

end Base64

namespace Json

open Form

/-! ## Values -/

theorem faithful_base64 : @Faithful Bytes base64Form :=
  @Faithful.mk Bytes base64Form (fun b => .string (Base64.encode b)) Base64.decode?_encode

theorem faithful_bool : Faithful Bool where
  whole b := .bool b
  read _ := rfl

theorem faithful_int64 : Faithful Int64 where
  whole n := .int n.toInt
  read n := by
    have hlow := n.le_toInt
    have hhigh := n.toInt_lt
    have hrange : -9223372036854775808 ≤ n.toInt ∧ n.toInt ≤ 9223372036854775807 := by omega
    simp only [write, read?]
    rw [if_pos hrange, Int64.ofInt_toInt]

theorem faithful_int32 : Faithful Int32 where
  whole n := .int n.toInt
  read n := by
    have hlow := n.le_toInt
    have hhigh := n.toInt_lt
    have hrange : -2147483648 ≤ n.toInt ∧ n.toInt ≤ 2147483647 := by omega
    simp only [write, read?]
    rw [if_pos hrange, Int32.ofInt_toInt]

/-! ## Records -/

/-- A field, and what is said of it, if anything. -/
structure Field where
  name : String
  value : Option Value
  whole : ∀ v ∈ value, Whole v

/-- A field that is always said. -/
def Faithful.field {A : Type} [Form A] (h : Faithful A) (name : String) (a : A) : Field where
  name := name
  value := some (write a)
  whole := by
    rintro _ ⟨⟩
    exact h.whole a

/-- A field that is left out when there is nothing to say. -/
def Faithful.maybe {A : Type} [Form A] (h : Faithful A) (name : String) (o : Option A) : Field where
  name := name
  value := o.map write
  whole := by
    intro v hv
    obtain ⟨a, -, rfl⟩ := Option.map_eq_some_iff.mp hv
    exact h.whole a

/-- The members of a record with these fields. -/
def said (fs : List Field) : List (String × Value) := fs.filterMap fun f => f.value.map (f.name, ·)

theorem said_append (fs gs : List Field) : said (fs ++ gs) = said fs ++ said gs := List.filterMap_append

theorem said_field {A : Type} [Form A] (h : Faithful A) (name : String) (a : A) (fs : List Field) :
    said (h.field name a :: fs) = (name, write a) :: said fs := rfl

theorem said_maybe {A : Type} [Form A] (h : Faithful A) (name : String) (o : Option A) :
    said [h.maybe name o] = member? name o := by
  cases o with
  | none => rfl
  | some a => rfl

theorem mem_said {fs : List Field} {m : String × Value} :
    m ∈ said fs ↔ ∃ f ∈ fs, f.name = m.1 ∧ f.value = some m.2 := by
  constructor
  · intro h
    obtain ⟨f, hf, hm⟩ := List.mem_filterMap.mp h
    obtain ⟨v, hv, rfl⟩ := Option.map_eq_some_iff.mp hm
    exact ⟨f, hf, rfl, hv⟩
  · rintro ⟨f, hf, hname, hvalue⟩
    exact List.mem_filterMap.mpr ⟨f, hf, by rw [hvalue, Option.map_some, hname]⟩

theorem filter_said_of_ne {fs : List Field} {name : String} (h : name ∉ fs.map Field.name) :
    (said fs).filter (fun m => m.1 == name) = [] := by
  apply List.filter_eq_nil_iff.mpr
  intro m hm heq
  rw [beq_iff_eq] at heq
  obtain ⟨f, hf, hname, -⟩ := mem_said.mp hm
  exact h (heq ▸ hname ▸ List.mem_map_of_mem hf)

theorem filter_said_singleton (f : Field) :
    (said [f]).filter (fun m => m.1 == f.name) = said [f] := by
  apply List.filter_eq_self.mpr
  intro m hm
  obtain ⟨g, hg, hname, -⟩ := mem_said.mp hm
  rw [← hname, List.mem_singleton.mp hg]
  exact beq_self_eq_true f.name

theorem filter_said {fs : List Field} (hnodup : (fs.map Field.name).Nodup) {f : Field} (hf : f ∈ fs) :
    (said fs).filter (fun m => m.1 == f.name) = said [f] := by
  induction fs with
  | nil => exact absurd hf List.not_mem_nil
  | cons g fs ih =>
    obtain ⟨hnew, hrest⟩ := List.nodup_cons.mp hnodup
    rw [← List.singleton_append, said_append, List.filter_append]
    cases List.mem_cons.mp hf with
    | inl h => rw [h, filter_said_singleton, filter_said_of_ne hnew, List.append_nil]
    | inr h =>
      have hne : f.name ∉ [g].map Field.name := by
        intro hsame
        exact hnew (List.mem_singleton.mp hsame ▸ List.mem_map_of_mem h)
      rw [filter_said_of_ne hne, ih hrest h, List.nil_append]

theorem length_said_singleton (f : Field) : (said [f]).length ≤ 1 := by
  obtain ⟨name, v, -⟩ := f
  cases v with
  | none => exact Nat.zero_le 1
  | some v => exact Nat.le_refl 1

theorem head?_said_singleton (f : Field) : (said [f]).head?.map Prod.snd = f.value := by
  obtain ⟨name, v, -⟩ := f
  cases v with
  | none => rfl
  | some v => rfl

theorem fields_said {fs : List Field} (hnodup : (fs.map Field.name).Nodup) :
    fields (fs.map Field.name) (.record (said fs)) = some (fs.map Field.value) := by
  let ms := named (said fs)
  have hfilter (f : Field) (hf : f ∈ fs) :
      ms.filter (fun m => m.1 == some f.name) = named (said [f]) := by
    rw [← filter_said hnodup hf]
    exact List.filter_map
  have hnamed : ms.all (fun m => m.1.isSome) = true := by
    apply List.all_eq_true.mpr
    intro m hm
    obtain ⟨_, -, rfl⟩ := List.mem_map.mp hm
    rfl
  have honce :
      (fs.map Field.name).all (fun n => (ms.filter fun m => m.1 == some n).length ≤ 1) = true := by
    apply List.all_eq_true.mpr
    intro n hn
    obtain ⟨f, hf, rfl⟩ := List.mem_map.mp hn
    rw [hfilter f hf, named, List.length_map]
    exact decide_eq_true (length_said_singleton f)
  change ofMembers (fs.map Field.name) ms = _
  rw [ofMembers, hnamed, honce, Bool.and_self, if_pos rfl, List.map_map]
  congr 1
  apply List.map_congr_left
  intro f hf
  rw [Function.comp_apply, ← List.head?_filter, hfilter f hf, named, List.head?_map, Option.map_map]
  exact head?_said_singleton f

theorem faithful_record {A : Type} [Form A] (parts : A → List Field) {names : List String}
    {assemble : List (Option Value) → Option A}
    (hread : ∀ v, (read? v : Option A) = fields names v >>= assemble)
    (hnodup : names.Nodup) (hnames : ∀ a, (parts a).map Field.name = names)
    (hwrite : ∀ a, write a = .record (said (parts a)))
    (hassemble : ∀ a, assemble ((parts a).map Field.value) = some a) : Faithful A where
  whole a := by
    rw [hwrite]
    apply Whole.record
    intro m hm
    obtain ⟨f, -, -, hvalue⟩ := mem_said.mp hm
    exact f.whole m.2 hvalue
  read a := by
    rw [hwrite, hread, ← hnames a, fields_said (hnames a ▸ hnodup), Option.bind_eq_bind,
      Option.bind_some, hassemble]

/-! ## Reading fields -/

variable {A : Type} [Form A]

theorem Faithful.required_field (h : Faithful A) (name : String) (a : A) :
    required (h.field name a).value = some a := h.read a

theorem Faithful.orElse_field (h : Faithful A) (name : String) (default a : A) :
    orElse default (h.field name a).value = some a := h.read a

theorem Faithful.orElse_maybe (h : Faithful A) (hnull : ∀ a : A, write a ≠ .null) (name : String)
    (o : Option A) : orElse none (h.maybe name o).value = some o := by
  cases o with
  | none => rfl
  | some a =>
    have hread := h.read a
    have hsome := hnull a
    simp only [Faithful.maybe, Option.map_some, orElse]
    generalize write a = v at hread hsome
    cases v with
    | null => exact absurd rfl hsome
    | _ => exact congrArg (Option.map some) hread

end Json

namespace Consensus

open Json

/-! ## Parts of messages -/

theorem faithful_refusal : Faithful Refusal := by
  apply faithful_record (fun r => [faithful_int32.field "error_code" r.code,
    faithful_string.field "error_msg" r.text]) (fun _ => rfl) (by decide) (fun _ => rfl) (fun _ => rfl)
  intro r
  simp only [List.map_cons, List.map_nil, Faithful.required_field]
  rfl

theorem faithful_logId : Faithful LogId := by
  apply faithful_record (fun i => [faithful_uint64.field "term" i.term,
    faithful_uint64.field "index" i.index]) (fun _ => rfl) (by decide) (fun _ => rfl) (fun _ => rfl)
  intro i
  simp only [List.map_cons, List.map_nil, Faithful.required_field]
  rfl

theorem faithful_entryKind : Faithful EntryKind where
  whole k := .string k.name
  read k := by cases k <;> decide

/-- The refusal that a reply may carry. -/
abbrev refusalField (o : Option Refusal) : Field := faithful_refusal.maybe "error_response" o

theorem orElse_refusal (o : Option Refusal) : orElse none (refusalField o).value = some o :=
  faithful_refusal.orElse_maybe (fun _ => Value.noConfusion) _ o

/-- The checksum that an entry may carry. -/
abbrev checksumField (o : Option UInt64) : Field := faithful_uint64.maybe "checksum" o

theorem orElse_checksum (o : Option UInt64) : orElse none (checksumField o).value = some o :=
  faithful_uint64.orElse_maybe (fun _ => Value.noConfusion) _ o

/-- A payload. -/
abbrev dataField (b : Bytes) : Field := @Faithful.field _ base64Form faithful_base64 "data" b

theorem faithful_base64List : @Faithful (List Bytes) base64ListForm :=
  @faithful_list _ base64Form faithful_base64

/-- Payloads one by one. -/
abbrev payloadsField (bs : List Bytes) : Field :=
  @Faithful.field _ base64ListForm faithful_base64List "entries" bs

theorem faithful_texts : Faithful (List String) := faithful_list faithful_string

/-- The lists of peers, each under its own name. -/
abbrev peerFields (p : PeerLists) : List Field :=
  [faithful_texts.field "peers" p.peers, faithful_texts.field "old_peers" p.oldPeers,
    faithful_texts.field "learners" p.learners, faithful_texts.field "old_learners" p.oldLearners]

theorem ofFields?_peerFields (p : PeerLists) :
    PeerLists.ofFields? (faithful_texts.field "peers" p.peers).value
      (faithful_texts.field "old_peers" p.oldPeers).value
      (faithful_texts.field "learners" p.learners).value
      (faithful_texts.field "old_learners" p.oldLearners).value = some p := by
  simp only [PeerLists.ofFields?, Faithful.orElse_field]
  rfl

/-! ## Messages -/

theorem faithful_voteRequest : Faithful VoteRequest := by
  apply faithful_record (fun r => [faithful_string.field "group_id" r.groupId,
    faithful_string.field "server_id" r.serverId, faithful_string.field "peer_id" r.peerId,
    faithful_uint64.field "term" r.term, faithful_uint64.field "last_log_term" r.lastLogTerm,
    faithful_uint64.field "last_log_index" r.lastLogIndex, faithful_bool.field "pre_vote" r.preVote])
    (fun _ => rfl) (by decide) (fun _ => rfl) (fun _ => rfl)
  intro r
  simp only [List.map_cons, List.map_nil, Faithful.required_field, Faithful.orElse_field]
  rfl

theorem faithful_voteReply : Faithful VoteReply := by
  apply faithful_record (fun r => [faithful_uint64.field "term" r.term,
    faithful_bool.field "granted" r.granted, refusalField r.refusal])
    (fun _ => rfl) (by decide) (fun _ => rfl)
  · intro r
    simp only [said_field, said_maybe]
    rfl
  · intro r
    simp only [List.map_cons, List.map_nil, Faithful.required_field, orElse_refusal]
    rfl

theorem faithful_entryHeader : Faithful EntryHeader := by
  apply faithful_record (fun h => [faithful_uint64.field "term" h.term,
    faithful_entryKind.field "entry_type" h.kind] ++ peerFields h.peers ++
    [faithful_uint64.field "data_len" h.dataLength, checksumField h.checksum])
    (fun _ => rfl) (by decide) (fun _ => rfl)
  · intro h
    simp only [List.cons_append, List.nil_append, said_field, said_maybe]
    rfl
  · intro h
    simp only [List.map_cons, List.map_nil, List.cons_append, List.nil_append,
      Faithful.required_field, ofFields?_peerFields, orElse_checksum]
    rfl

theorem faithful_appendRequest : Faithful AppendRequest := by
  apply faithful_record (fun r => [faithful_string.field "group_id" r.groupId,
    faithful_string.field "server_id" r.serverId, faithful_string.field "peer_id" r.peerId,
    faithful_uint64.field "term" r.term, faithful_uint64.field "prev_log_term" r.prevLogTerm,
    faithful_uint64.field "prev_log_index" r.prevLogIndex,
    (faithful_list faithful_entryHeader).field "entries" r.headers,
    faithful_uint64.field "committed_index" r.committedIndex, dataField r.data])
    (fun _ => rfl) (by decide) (fun _ => rfl) (fun _ => rfl)
  intro r
  simp only [List.map_cons, List.map_nil, Faithful.required_field, Faithful.orElse_field]
  rfl

theorem faithful_appendReply : Faithful AppendReply := by
  apply faithful_record (fun r => [faithful_uint64.field "term" r.term,
    faithful_bool.field "success" r.success, faithful_uint64.field "last_log_index" r.lastLogIndex,
    refusalField r.refusal]) (fun _ => rfl) (by decide) (fun _ => rfl)
  · intro r
    simp only [said_field, said_maybe]
    rfl
  · intro r
    simp only [List.map_cons, List.map_nil, Faithful.required_field, orElse_refusal]
    rfl

theorem faithful_snapshotHeader : Faithful SnapshotHeader := by
  apply faithful_record (fun h => [faithful_uint64.field "last_included_index" h.lastIndex,
    faithful_uint64.field "last_included_term" h.lastTerm] ++ peerFields h.peers)
    (fun _ => rfl) (by decide) (fun _ => rfl) (fun _ => rfl)
  intro h
  simp only [List.map_cons, List.map_nil, List.cons_append, List.nil_append,
    Faithful.required_field, ofFields?_peerFields]
  rfl

theorem faithful_installRequest : Faithful InstallRequest := by
  apply faithful_record (fun r => [faithful_string.field "group_id" r.groupId,
    faithful_string.field "server_id" r.serverId, faithful_string.field "peer_id" r.peerId,
    faithful_uint64.field "term" r.term, faithful_snapshotHeader.field "meta" r.header,
    faithful_string.field "uri" r.uri])
    (fun _ => rfl) (by decide) (fun _ => rfl) (fun _ => rfl)
  intro r
  simp only [List.map_cons, List.map_nil, Faithful.required_field]
  rfl

theorem faithful_outcomeReply : Faithful OutcomeReply := by
  apply faithful_record (fun r => [faithful_uint64.field "term" r.term,
    faithful_bool.field "success" r.success, refusalField r.refusal])
    (fun _ => rfl) (by decide) (fun _ => rfl)
  · intro r
    simp only [said_field, said_maybe]
    rfl
  · intro r
    simp only [List.map_cons, List.map_nil, Faithful.required_field, orElse_refusal]
    rfl

theorem faithful_fileRequest : Faithful FileRequest := by
  apply faithful_record (fun r => [faithful_int64.field "reader_id" r.readerId,
    faithful_string.field "filename" r.filename, faithful_int64.field "count" r.count,
    faithful_int64.field "offset" r.offset, faithful_bool.field "read_partly" r.readPartly])
    (fun _ => rfl) (by decide) (fun _ => rfl) (fun _ => rfl)
  intro r
  simp only [List.map_cons, List.map_nil, Faithful.required_field, Faithful.orElse_field]
  rfl

theorem faithful_fileReply : Faithful FileReply := by
  apply faithful_record (fun r => [faithful_bool.field "eof" r.eof, dataField r.data,
    faithful_int64.field "read_size" r.readSize, refusalField r.refusal])
    (fun _ => rfl) (by decide) (fun _ => rfl)
  · intro r
    simp only [said_field, said_maybe]
    rfl
  · intro r
    simp only [List.map_cons, List.map_nil, Faithful.required_field, Faithful.orElse_field,
      orElse_refusal]
    rfl

theorem faithful_timeoutNowRequest : Faithful TimeoutNowRequest := by
  apply faithful_record (fun r => [faithful_string.field "group_id" r.groupId,
    faithful_string.field "server_id" r.serverId, faithful_string.field "peer_id" r.peerId,
    faithful_uint64.field "term" r.term])
    (fun _ => rfl) (by decide) (fun _ => rfl) (fun _ => rfl)
  intro r
  simp only [List.map_cons, List.map_nil, Faithful.required_field]
  rfl

theorem faithful_readIndexRequest : Faithful ReadIndexRequest := by
  apply faithful_record (fun r => [faithful_string.field "group_id" r.groupId,
    faithful_string.field "server_id" r.serverId, payloadsField r.entries,
    faithful_string.field "peer_id" r.peerId])
    (fun _ => rfl) (by decide) (fun _ => rfl) (fun _ => rfl)
  intro r
  simp only [List.map_cons, List.map_nil, Faithful.required_field, Faithful.orElse_field]
  rfl

theorem faithful_readIndexReply : Faithful ReadIndexReply := by
  apply faithful_record (fun r => [faithful_uint64.field "index" r.index,
    faithful_bool.field "success" r.success, refusalField r.refusal])
    (fun _ => rfl) (by decide) (fun _ => rfl)
  · intro r
    simp only [said_field, said_maybe]
    rfl
  · intro r
    simp only [List.map_cons, List.map_nil, Faithful.required_field, orElse_refusal]
    rfl

theorem faithful_logEntry : Faithful LogEntry := by
  apply faithful_record (fun e => [faithful_entryKind.field "entry_type" e.kind,
    faithful_logId.field "id" e.id] ++ peerFields e.peers ++
    [dataField e.data, checksumField e.checksum])
    (fun _ => rfl) (by decide) (fun _ => rfl)
  · intro e
    simp only [List.cons_append, List.nil_append, said_field, said_maybe]
    rfl
  · intro e
    simp only [List.map_cons, List.map_nil, List.cons_append, List.nil_append,
      Faithful.required_field, ofFields?_peerFields, Faithful.orElse_field, orElse_checksum]
    rfl

/-- Every value of a type is read from its own text. -/
def Survives (A : Type) [Form A] : Prop := ∀ a : A, Form.ofBytes? (Form.bytes a) = some a

/-- Whatever a message says, and whichever of its optional fields it leaves out, the reader of its
text gets the same message. -/
theorem messages_survive_their_text :
    (Survives VoteRequest ∧ Survives VoteReply) ∧
    (Survives EntryHeader ∧ Survives AppendRequest ∧ Survives AppendReply) ∧
    (Survives SnapshotHeader ∧ Survives InstallRequest ∧ Survives InstallReply) ∧
    (Survives FileRequest ∧ Survives FileReply) ∧
    (Survives TimeoutNowRequest ∧ Survives TimeoutNowReply) ∧
    (Survives ReadIndexRequest ∧ Survives ReadIndexReply) ∧
    Survives Refusal ∧ Survives LogEntry ∧ Survives PubSub.Announcement := by
  have hvotes : Survives VoteRequest ∧ Survives VoteReply :=
    ⟨faithful_voteRequest.ofBytes?_bytes, faithful_voteReply.ofBytes?_bytes⟩
  have happends : Survives EntryHeader ∧ Survives AppendRequest ∧ Survives AppendReply :=
    ⟨faithful_entryHeader.ofBytes?_bytes, faithful_appendRequest.ofBytes?_bytes,
      faithful_appendReply.ofBytes?_bytes⟩
  have hinstalls : Survives SnapshotHeader ∧ Survives InstallRequest ∧ Survives InstallReply :=
    ⟨faithful_snapshotHeader.ofBytes?_bytes, faithful_installRequest.ofBytes?_bytes,
      faithful_outcomeReply.ofBytes?_bytes⟩
  have hfiles : Survives FileRequest ∧ Survives FileReply :=
    ⟨faithful_fileRequest.ofBytes?_bytes, faithful_fileReply.ofBytes?_bytes⟩
  have htimeouts : Survives TimeoutNowRequest ∧ Survives TimeoutNowReply :=
    ⟨faithful_timeoutNowRequest.ofBytes?_bytes, faithful_outcomeReply.ofBytes?_bytes⟩
  have hreads : Survives ReadIndexRequest ∧ Survives ReadIndexReply :=
    ⟨faithful_readIndexRequest.ofBytes?_bytes, faithful_readIndexReply.ofBytes?_bytes⟩
  exact ⟨hvotes, happends, hinstalls, hfiles, htimeouts, hreads, faithful_refusal.ofBytes?_bytes,
    faithful_logEntry.ofBytes?_bytes, PubSub.faithful_announcement.ofBytes?_bytes⟩

end Consensus

end ClusterNet
