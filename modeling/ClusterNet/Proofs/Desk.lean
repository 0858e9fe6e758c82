import ClusterNet.Proofs.Sending

/-!
# Calls in small steps

A call is listed before it looks at the channel, and it looks twice before its request comes into the
queue. Whoever takes the replies takes a call off the list first and tells it afterwards. When no reply
will come any more, the ids on the list are written down, one shard of the list after the other, and then
the calls under them are taken off and told. Between any two of these steps others may act.
-/

namespace ClusterNet.Messaging

open Wire

/-- The list of calls is divided into shards, which are read one after the other. -/
structure Shards where
  count : Nat
  of : UInt64 → Fin count

/-- What the one who takes the replies is at. -/
inductive Receiving where
  | taking
  /-- Has a reply, and looks for its call next. -/
  | matching (r : Reply)
  /-- No reply will come any more. So many shards were read, and these ids were found. -/
  | searching (shards : Nat) (found : List UInt64)
  | clearing (ids : List UInt64)
  | over
  deriving DecidableEq

structure Desk where
  client : Client
  shards : Shards
  /-- Calls that are listed and have not handed their request over. So often they will look before. -/
  entering : Table CallKey Nat
  receiving : Receiving
  /-- A call that was taken off the list and will be told next, and the reply if it is one. -/
  hand : Option (CallKey × Option Reply)

inductive DeskAct where
  | registers (k : CallKey) (r : Request) (patience : Nat)
  | looks (k : CallKey)
  /-- The request comes into the queue, or finds that there is none. -/
  | hands (k : CallKey)
  | proceeds (k : CallKey) (now : Nat)
  | abandons (k : CallKey)
  | receives
  | channel (m : ChannelMove)

/-- What a call is told that was taken off the list. -/
def Call.outcomeFor (c : Call) : Option Reply → Outcome
  | some r => outcomeOf c.request.subject r
  | none => .error .connectionClosed

namespace Desk

def start (limit capacity : Nat) (shards : Shards) : Desk :=
  ⟨.ofChannel (.start limit capacity), shards, .empty, .taking, none⟩

/-- A call is listed under its id before it looks at the channel. -/
def register (x : Desk) (k : CallKey) (r : Request) (patience : Nat) : Desk :=
  { x with
    client := { x.client.forget r.id with
      pending := (x.client.forget r.id).pending.insert r.id k
      calls := (x.client.forget r.id).calls.insert k ⟨r, patience, .empty, .gone⟩ }
    entering := x.entering.insert k 2 }

def look? (x : Desk) (k : CallKey) : Option Desk :=
  match x.entering.get? k with
  | some (n + 1) =>
    if x.client.channel.closed then
      some { x with
        client := x.client.finish k (.over (.error .connectionClosed))
        entering := x.entering.erase k }
    else some { x with entering := x.entering.insert k n }
  | _ => none

def hand? (x : Desk) (k : CallKey) : Option Desk :=
  match x.entering.get? k, x.client.call? k with
  | some 0, some call =>
    let (t, channel) := x.client.channel.enqueue (.request call.request)
    some { x with
      client := { x.client with channel, calls := x.client.calls.insert k { call with progress := .sending t } }
      entering := x.entering.erase k }
  | _, _ => none

def abandon (x : Desk) (k : CallKey) : Desk :=
  if (x.entering.get? k).isSome then
    { x with client := x.client.finish k .gone, entering := x.entering.erase k }
  else { x with client := x.client.abandon k }

/-- Takes the call under an id off the list. -/
def pick (x : Desk) (id : UInt64) (r? : Option Reply) : Desk :=
  match x.client.pending.get? id with
  | some k => { x with client := { x.client with pending := x.client.pending.erase id }, hand := some (k, r?) }
  | none => x

/-- The call that was taken off the list is told. -/
def tell (x : Desk) (k : CallKey) (r? : Option Reply) : Desk :=
  { x with
    client := { x.client with calls := x.client.calls.modify k fun call => call.fill (call.outcomeFor r?) }
    hand := none }

def receive? (x : Desk) : Option Desk :=
  match x.hand with
  | some (k, r?) => some (x.tell k r?)
  | none =>
    match x.receiving with
    | .taking =>
      match x.client.channel.receive? with
      | some (.reply r, channel) => some { x with client := { x.client with channel }, receiving := .matching r }
      | some (.request _, channel) => some { x with client := { x.client with channel } }
      | none =>
        if x.client.channel.ended then
          some { x with client := { x.client with receiving := false }, receiving := .searching 0 [] }
        else none
    | .matching r => some ({ x with receiving := .taking }.pick r.id (some r))
    | .searching i found =>
      if i < x.shards.count then
        let here := x.client.pending.keys.filter fun id => x.shards.of id = i
        some { x with receiving := .searching (i + 1) (found ++ here) }
      else some { x with receiving := .clearing found }
    | .clearing (id :: ids) => some ({ x with receiving := .clearing ids }.pick id none)
    | .clearing [] => some { x with receiving := .over }
    | .over => none

/-- No call has had the key or the id of the request. -/
def Fresh (x : Desk) (k : CallKey) (r : Request) : Prop :=
  x.client.call? k = none ∧ ∀ l ∈ x.client.calls.keys, ∀ a ∈ x.client.call? l, a.request.id ≠ r.id

instance (x : Desk) (k : CallKey) (r : Request) : Decidable (x.Fresh k r) :=
  decidable_of_iff ((x.client.call? k).isNone = true ∧
      ∀ l ∈ x.client.calls.keys, ∀ a ∈ x.client.call? l, a.request.id ≠ r.id) <| by
    rw [Option.isNone_iff_eq_none, Fresh]

/-- An act that is not possible now changes nothing. Keys and ids are used for one call only, and no
request is taken back whose call still sends. -/
def act (x : Desk) : DeskAct → Desk
  | .registers k r n => if x.Fresh k r then x.register k r n else x
  | .looks k => (x.look? k).getD x
  | .hands k => (x.hand? k).getD x
  | .proceeds k now => { x with client := (x.client.proceed? k now).getD x.client }
  | .abandons k => x.abandon k
  | .receives => x.receive?.getD x
  | .channel m =>
    if x.client.Permits (.channel m) then
      { x with client := { x.client with channel := (x.client.channel.move? m).getD x.client.channel } }
    else x

def run (x : Desk) (acts : List DeskAct) : Desk := acts.foldl act x

/-! ## Small steps in a row -/

variable {x : Desk} {k : CallKey} {r : Request}

theorem fresh_iff : x.Fresh k r ↔ x.client.call? k = none ∧ ∀ l a, x.client.call? l = some a → a.request.id ≠ r.id := by
  refine and_congr_right fun _ => ⟨fun h l a ha => h l ?_ a ha, fun h l _ a ha => h l a ha⟩
  rw [← Table.contains_iff_mem_keys, Table.contains]
  exact Option.isSome_iff_exists.mpr ⟨a, ha⟩

theorem look?_of_closed {n : Nat} (h : x.entering.get? k = some (n + 1)) (hclosed : x.client.channel.closed = true) :
    x.look? k = some { x with
      client := x.client.finish k (.over (.error .connectionClosed))
      entering := x.entering.erase k } := by
  simp only [look?, h, hclosed, if_true]

theorem look?_of_open {n : Nat} (h : x.entering.get? k = some (n + 1)) (hopen : x.client.channel.closed = false) :
    x.look? k = some { x with entering := x.entering.insert k n } := by
  simp only [look?, h, hopen, Bool.false_eq_true, if_false]

theorem look?_eq_some {y : Desk} (hy : x.look? k = some y) : ∃ n, x.entering.get? k = some (n + 1) ∧
    ((x.client.channel.closed = true ∧ y = { x with
        client := x.client.finish k (.over (.error .connectionClosed))
        entering := x.entering.erase k }) ∨
      x.client.channel.closed = false ∧ y = { x with entering := x.entering.insert k n }) := by
  unfold look? at hy
  split at hy
  · rename_i n hn
    refine ⟨n, hn, ?_⟩
    split at hy
    · exact .inl ⟨‹_›, (Option.some.inj hy).symm⟩
    · rename_i hopen
      exact .inr ⟨Bool.eq_false_iff.mpr hopen, (Option.some.inj hy).symm⟩
  · cases hy

theorem hand?_of_entering {call : Call} (h : x.entering.get? k = some 0) (hk : x.client.call? k = some call) :
    x.hand? k = some { x with
      client := { x.client with
        channel := (x.client.channel.enqueue (.request call.request)).2
        calls := x.client.calls.insert k
          { call with progress := .sending (x.client.channel.enqueue (.request call.request)).1 } }
      entering := x.entering.erase k } := by
  simp only [hand?, h, hk]

theorem hand?_eq_some {y : Desk} (hy : x.hand? k = some y) :
    x.entering.get? k = some 0 ∧ ∃ a, x.client.call? k = some a ∧ y = { x with
      client := { x.client with
        channel := (x.client.channel.enqueue (.request a.request)).2
        calls := x.client.calls.insert k
          { a with progress := .sending (x.client.channel.enqueue (.request a.request)).1 } }
      entering := x.entering.erase k } := by
  unfold hand? at hy
  split at hy
  · rename_i a hzero hk
    exact ⟨hzero, a, hk, (Option.some.inj hy).symm⟩
  · cases hy

theorem act_of_not_entering (h : x.entering.get? k = none) : x.act (.looks k) = x ∧ x.act (.hands k) = x := by
  simp [act, look?, hand?, h]

theorem begin_eq_run (hk : x.Fresh k r) (hstopped : x.client.channel.writer = .stopped → x.client.channel.closed = true)
    (n : Nat) : (x.run [.registers k r n, .looks k, .looks k, .hands k]).client = x.client.begin k r n := by
  have hregister : x.act (.registers k r n) = x.register k r n := if_pos hk
  have hentering : (x.register k r n).entering.get? k = some 2 := Table.get?_insert_self _ _ _
  have hchannel : (x.register k r n).client.channel = x.client.channel := Client.channel_forget
  simp only [run, List.foldl_cons, List.foldl_nil, hregister]
  rcases Client.begin_eq x.client k r n with ⟨hclosed, hbegin⟩ | ⟨hopen, hbegin⟩
  · have hlook := look?_of_closed hentering (hchannel ▸ hclosed)
    have hgone := Table.get?_erase_self (x.register k r n).entering k
    have hact : (x.register k r n).act (.looks k) = _ := congrArg (Option.getD · _) hlook
    rw [hact, (act_of_not_entering hgone).1, (act_of_not_entering hgone).2]
    exact hbegin.symm
  · have hlook := look?_of_open hentering (hchannel ▸ hopen)
    have hlook' := look?_of_open (x := { x.register k r n with entering := (x.register k r n).entering.insert k 1 })
      (Table.get?_insert_self _ k 1) (hchannel ▸ hopen)
    have hhand := hand?_of_entering (x := { x.register k r n with
      entering := ((x.register k r n).entering.insert k 1).insert k 0 }) (Table.get?_insert_self _ k 0)
      (Table.get?_insert_self _ k _)
    simp only [act, hlook, hlook', hhand, Option.getD_some]
    have hsubmit : x.client.channel.submit (.request r) = x.client.channel.enqueue (.request r) := by
      rw [Channel.submit_eq_enqueue _ _ hstopped, hopen, if_neg Bool.false_ne_true]
    rw [hbegin, hsubmit]
    simp only [register, Client.channel_forget, Table.insert_insert]

/-- So it goes on if only the one who takes the replies acts. -/
def Receives (x y : Desk) : Prop := ∃ n, x.run (List.replicate n .receives) = y

theorem Receives.refl (x : Desk) : x.Receives x := ⟨0, rfl⟩

theorem Receives.step {y z : Desk} (h : x.receive? = some y) (hz : y.Receives z) : x.Receives z := by
  obtain ⟨n, rfl⟩ := hz
  refine ⟨n + 1, ?_⟩
  have hact : x.act .receives = y := congrArg (Option.getD · x) h
  rw [List.replicate_succ, run, List.foldl_cons, hact, run]

section

variable {c : Client} {s : Shards} {e : Table CallKey Nat}

/-- Whatever is on the list when the search begins is found. -/
theorem receives_search {n i : Nat} (hn : s.count - i = n) (found : List UInt64) : ∃ ids,
    (∀ id, id ∈ found ∨ id ∈ c.pending.keys ∧ i ≤ s.of id → id ∈ ids) ∧
      ∀ y, Receives ⟨c, s, e, .clearing ids, none⟩ y → Receives ⟨c, s, e, .searching i found, none⟩ y := by
  induction n generalizing i found with
  | zero =>
    have hi : ¬ i < s.count := by omega
    refine ⟨found, fun id hid => hid.resolve_right fun h => hi ?_, fun y hy => .step ?_ hy⟩
    · exact Nat.lt_of_le_of_lt h.2 (s.of id).isLt
    · simp only [receive?, hi, if_false]
  | succ n ih =>
    have hi : i < s.count := by omega
    obtain ⟨ids, hids, hrest⟩ := ih (i := i + 1) (by omega) (found ++ c.pending.keys.filter fun id => s.of id = i)
    refine ⟨ids, fun id hid => hids id ?_, fun y hy => .step ?_ (hrest y hy)⟩
    · rcases hid with hid | ⟨hid, hle⟩
      · exact .inl (List.mem_append_left _ hid)
      · by_cases hshard : (s.of id : Nat) = i
        · exact .inl (List.mem_append_right _ (List.mem_filter.mpr ⟨hid, decide_eq_true hshard⟩))
        · exact .inr ⟨hid, by omega⟩
    · simp only [receive?, hi, if_true]

/-- The call under an id is taken off the list and told that no reply will come. -/
def clear (c : Client) (id : UInt64) : Client :=
  match c.pending.get? id with
  | some k => { c with
    pending := c.pending.erase id
    calls := c.calls.modify k (·.fill (.error .connectionClosed)) }
  | none => c

theorem clear_of_some {id : UInt64} (h : c.pending.get? id = some k) : clear c id = { c with
    pending := c.pending.erase id
    calls := c.calls.modify k (·.fill (.error .connectionClosed)) } := by
  simp only [clear, h]

theorem clear_of_none {id : UInt64} (h : c.pending.get? id = none) : clear c id = c := by
  simp only [clear, h]

theorem receives_clear (ids : List UInt64) :
    Receives ⟨c, s, e, .clearing ids, none⟩ ⟨ids.foldl clear c, s, e, .over, none⟩ := by
  induction ids generalizing c with
  | nil => exact .step rfl (.refl _)
  | cons id ids ih =>
    rw [List.foldl_cons]
    have hfirst : receive? ⟨c, s, e, .clearing (id :: ids), none⟩ = some (pick ⟨c, s, e, .clearing ids, none⟩ id none) :=
      rfl
    cases hid : c.pending.get? id with
    | none =>
      simp only [pick, hid] at hfirst
      rw [clear_of_none hid]
      exact .step hfirst ih
    | some k =>
      simp only [pick, hid] at hfirst
      rw [clear_of_some hid]
      exact .step hfirst (.step rfl ih)

theorem foldl_clear (ids : List UInt64) (c : Client) : ∃ ks : List CallKey,
    ids.foldl clear c = { c with
      pending := (ids.foldl clear c).pending
      calls := ks.foldl (fun calls k => calls.modify k (·.fill (.error .connectionClosed))) c.calls } ∧
    (∀ k, k ∈ ks ↔ ∃ id ∈ ids, c.pending.get? id = some k) ∧
    ∀ id, (ids.foldl clear c).pending.get? id = if id ∈ ids then none else c.pending.get? id := by
  induction ids generalizing c with
  | nil => exact ⟨[], by simp⟩
  | cons id ids ih =>
    rw [List.foldl_cons]
    obtain ⟨ks, hclient, hks, hpending⟩ := ih (clear c id)
    cases hid : c.pending.get? id with
    | none =>
      rw [clear_of_none hid] at hclient hks hpending ⊢
      refine ⟨ks, hclient, fun k => (hks k).trans ?_, fun i => (hpending i).trans ?_⟩
      · simp [hid]
      · by_cases hi : i = id <;> simp [hi, hid]
    | some k =>
      rw [clear_of_some hid] at hclient hks hpending ⊢
      refine ⟨k :: ks, hclient, fun l => ?_, fun i => (hpending i).trans ?_⟩
      · rw [List.mem_cons, hks]
        simp only [Table.get?_erase, List.exists_mem_cons_iff, hid, Option.some.injEq, eq_comm (a := l)]
        constructor
        · rintro (hl | ⟨i, hi, hl⟩)
          · exact .inl hl
          · split at hl
            · cases hl
            · exact .inr ⟨i, hi, hl⟩
        · rintro (hl | ⟨i, hi, hl⟩)
          · exact .inl hl
          · by_cases hsame : i = id
            · rw [hsame, hid] at hl
              exact .inl (Option.some.inj hl)
            · exact .inr ⟨i, hi, by rw [if_neg hsame, hl]⟩
      · simp only [Table.get?_erase, List.mem_cons]
        by_cases hi : i = id <;> simp [hi]

theorem receives_cutOff (hdistinct : c.pending.Distinct) :
    Receives ⟨{ c with receiving := false }, s, e, .searching 0 [], none⟩ ⟨c.cutOff, s, e, .over, none⟩ := by
  obtain ⟨ids, hids, hrest⟩ := receives_search (c := { c with receiving := false }) (s := s) (e := e) (i := 0) rfl []
  refine hrest _ ?_
  have hclear := receives_clear (c := { c with receiving := false }) (s := s) (e := e) ids
  obtain ⟨ks, hclient, hks, hpending⟩ := foldl_clear ids { c with receiving := false }
  have hall : ∀ {id : UInt64} {k : CallKey}, c.pending.get? id = some k → id ∈ ids := fun hid =>
    hids _ (.inr ⟨Table.contains_iff_mem_keys.mp (by simp [Table.contains, hid]), Nat.zero_le _⟩)
  have hempty : (ids.foldl clear { c with receiving := false }).pending = .empty := by
    refine Table.eq_empty fun id => ?_
    rw [hpending]
    split
    · rfl
    · rename_i hnot
      by_contra hsome
      obtain ⟨k, hid⟩ := Option.ne_none_iff_exists'.mp hsome
      exact hnot (hall hid)
  have hsame : ∀ k, k ∈ ks ↔ k ∈ c.pending.values := by
    intro k
    rw [hks, Table.mem_values hdistinct]
    constructor
    · rintro ⟨id, -, hid⟩
      exact ⟨id, hid⟩
    · rintro ⟨id, hid⟩
      exact ⟨id, hall hid, hid⟩
  have hfold := fun ks (t : Table CallKey Call) =>
    Table.foldl_modify_eq (f := (Call.fill · (.error .connectionClosed))) (fun a => a.fill_fill _) ks t
  rw [hclient, hempty, hfold] at hclear
  rw [Client.cutOff, hfold]
  simp only [← hsame]
  exact hclear

theorem receive?_receives {d : Client} (hdistinct : c.pending.Distinct) (hd : c.receive? = some d) :
    Receives ⟨c, s, e, .taking, none⟩ ⟨d, s, e, if d.receiving then .taking else .over, none⟩ := by
  obtain ⟨hgoing, ⟨r, channel, hr, rfl⟩ | ⟨r, channel, hr, rfl⟩ | ⟨hnone, hended, rfl⟩⟩ := Client.receive?_eq_some hd
  · refine .step (y := ⟨{ c with channel }, s, e, .matching r, none⟩) (by simp only [receive?, hr]) ?_
    have hpick : receive? ⟨{ c with channel }, s, e, .matching r, none⟩ =
      some (pick ⟨{ c with channel }, s, e, .taking, none⟩ r.id (some r)) := rfl
    rw [Client.receiving_deliver, if_pos hgoing]
    cases hid : c.pending.get? r.id with
    | none =>
      simp only [pick, hid] at hpick
      simp only [Client.deliver, hid]
      exact .step hpick (.refl _)
    | some k =>
      simp only [pick, hid] at hpick
      simp only [Client.deliver, hid]
      exact .step hpick (.step rfl (.refl _))
  · refine .step (y := ⟨{ c with channel }, s, e, .taking, none⟩) (by simp only [receive?, hr]) ?_
    rw [if_pos hgoing]
    exact .refl _
  · refine .step (y := ⟨{ c with receiving := false }, s, e, .searching 0 [], none⟩) ?_ (receives_cutOff hdistinct)
    simp only [receive?, hnone, hended, if_true]

end

/-- A desk whose steps nobody comes between does what the client does at once: it begins calls, and takes
messages or the end of the channel. -/
theorem undisturbed_steps :
    (∀ (x : Desk) (k : CallKey) (r : Request) (n : Nat), x.Fresh k r →
      (x.client.channel.writer = .stopped → x.client.channel.closed = true) →
      (x.run [.registers k r n, .looks k, .looks k, .hands k]).client = x.client.begin k r n) ∧
    ∀ (c d : Client) (s : Shards) (e : Table CallKey Nat), c.pending.Distinct → c.receive? = some d →
      Receives ⟨c, s, e, .taking, none⟩ ⟨d, s, e, if d.receiving then .taking else .over, none⟩ :=
  ⟨fun _ _ _ n hfresh hstopped => begin_eq_run hfresh hstopped n, fun _ _ _ _ => receive?_receives⟩

end Desk

end ClusterNet.Messaging
