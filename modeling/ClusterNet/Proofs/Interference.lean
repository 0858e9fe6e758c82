import ClusterNet.Proofs.Calls
import ClusterNet.Proofs.ChannelMoves

/-!
# Calls with other ids

Two clients are alike up to an id if they differ only in what they have for the calls with that
id. They stay alike whatever happens to both of them, so nothing that is said to a call with the
id can be seen by another call, not even later.
-/

namespace ClusterNet.Messaging

open Wire

/-- What may happen to a client, in any order. -/
inductive ClientAct where
  | begins (k : CallKey) (r : Request) (patience : Nat)
  | proceeds (k : CallKey) (now : Nat)
  | abandons (k : CallKey)
  | receives
  | channel (m : ChannelMove)

/-- An act that is not possible now changes nothing. A key is used for one call only. -/
def Client.act (c : Client) : ClientAct → Client
  | .begins k r n => if (c.call? k).isNone then c.begin k r n else c
  | .proceeds k now => (c.proceed? k now).getD c
  | .abandons k => c.abandon k
  | .receives => c.receive?.getD c
  | .channel m => { c with channel := (c.channel.move? m).getD c.channel }

/-! ## What is left of a call -/

/-- What a call holds of the channel. -/
def Progress.share : Progress → Progress
  | .sending t => .sending t
  | _ => .gone

theorem Progress.share_eq_sending {p : Progress} {t : Ticket} :
    p.share = .sending t ↔ p = .sending t := by
  cases p <;> simp [share]

theorem Progress.share_eq_gone {p : Progress} (h : ∀ t, p ≠ .sending t) : p.share = .gone := by
  cases p with
  | sending t => exact absurd rfl (h t)
  | _ => rfl

/-- A call as seen by those who do not care about an id. -/
def Call.veil (i : UInt64) (c : Call) : Call :=
  if c.request.id = i then { c with slot := .lost, progress := c.progress.share } else c

section

variable {i : UInt64} {a b : Call}

theorem Call.veil_of_ne (h : a.request.id ≠ i) : a.veil i = a := if_neg h

@[simp] theorem Call.request_veil : (a.veil i).request = a.request := by
  unfold veil
  split <;> rfl

theorem Call.request_of_veil (h : a.veil i = b.veil i) : a.request = b.request := by
  simpa using congrArg Call.request h

@[simp] theorem Call.patience_veil : (a.veil i).patience = a.patience := by
  unfold veil
  split <;> rfl

theorem Call.patience_of_veil (h : a.veil i = b.veil i) : a.patience = b.patience := by
  simpa using congrArg Call.patience h

theorem Call.eq_of_veil (h : a.veil i = b.veil i) (hid : a.request.id ≠ i) : a = b := by
  have hb : b.request.id ≠ i := by rwa [← request_of_veil h]
  rwa [veil_of_ne hid, veil_of_ne hb] at h

theorem Call.sending_veil {t : Ticket} : (a.veil i).progress = .sending t ↔ a.progress = .sending t := by
  unfold veil
  split
  · exact Progress.share_eq_sending
  · rfl

theorem Call.sending_of_veil (h : a.veil i = b.veil i) {t : Ticket} :
    a.progress = .sending t ↔ b.progress = .sending t := by
  rw [← sending_veil (i := i), h, sending_veil]

theorem Call.veil_lose (h : a.request.id = i) : a.lose.veil i = a.veil i := by
  simp [veil, h]

theorem Call.veil_fill (h : a.request.id = i) (o : Outcome) : (a.fill o).veil i = a.veil i := by
  simp [veil, h]

theorem Call.veil_setProgress (h : a.veil i = b.veil i) (p : Progress) :
    ({ a with progress := p } : Call).veil i = ({ b with progress := p } : Call).veil i := by
  have hreq := request_of_veil h
  by_cases hid : a.request.id = i
  · have hb : b.request.id = i := by rwa [← hreq]
    simp [veil, hb, hreq, patience_of_veil h]
  · rw [eq_of_veil h hid]

end

namespace Client

variable {c d e : Client} {i id : UInt64} {k : CallKey}

/-! ## Clients that are alike -/

structure Alike (i : UInt64) (c d : Client) : Prop where
  channel : c.channel = d.channel
  receiving : c.receiving = d.receiving
  pending : ∀ {id}, id ≠ i → c.pending.get? id = d.pending.get? id
  calls : ∀ k, (c.call? k).map (Call.veil i) = (d.call? k).map (Call.veil i)

theorem Alike.refl (i : UInt64) (c : Client) : Alike i c c := ⟨rfl, rfl, fun _ => rfl, fun _ => rfl⟩

theorem Alike.symm (h : Alike i c d) : Alike i d c :=
  ⟨h.channel.symm, h.receiving.symm, fun hid => (h.pending hid).symm, fun k => (h.calls k).symm⟩

theorem Alike.trans (h : Alike i c d) (h' : Alike i d e) : Alike i c e :=
  ⟨h.channel.trans h'.channel, h.receiving.trans h'.receiving,
    fun hid => (h.pending hid).trans (h'.pending hid), fun k => (h.calls k).trans (h'.calls k)⟩

theorem Alike.setChannel (h : Alike i c d) (channel : Channel) :
    Alike i { c with channel } { d with channel } :=
  ⟨rfl, h.receiving, h.pending, h.calls⟩

theorem Alike.none (h : Alike i c d) (hk : c.call? k = .none) : d.call? k = .none := by
  have := h.calls k
  rw [hk] at this
  simpa using this.symm

theorem Alike.some {a : Call} (h : Alike i c d) (hk : c.call? k = .some a) :
    ∃ b, d.call? k = .some b ∧ a.veil i = b.veil i := by
  have := h.calls k
  rw [hk] at this
  obtain ⟨b, hb, hveil⟩ := Option.map_eq_some_iff.mp this.symm
  exact ⟨b, hb, hveil.symm⟩

theorem Alike.call?_eq {a : Call} (h : Alike i c d) (hk : c.call? k = .some a) (hid : a.request.id ≠ i) :
    d.call? k = .some a := by
  obtain ⟨b, hb, hveil⟩ := h.some hk
  rw [hb, Call.eq_of_veil hveil hid]

theorem Alike.changeListed (h : Alike i c d) (hc : c.Sound) (hd : d.Sound) {f : Call → Call}
    (hf : ∀ {a}, a.request.id = i → (f a).veil i = a.veil i) (id : UInt64) (k : CallKey) :
    (if c.pending.get? id = .some k then (c.call? k).map f else c.call? k).map (Call.veil i) =
      (if d.pending.get? id = .some k then (d.call? k).map f else d.call? k).map (Call.veil i) := by
  by_cases hid : id = i
  · -- Whatever is done to the call under `i` is not seen, on either side.
    have habsorb : ∀ {x : Client}, x.Sound →
        (if x.pending.get? id = .some k then (x.call? k).map f else x.call? k).map (Call.veil i) =
          (x.call? k).map (Call.veil i) := by
      intro x hx
      split
      · rename_i hp
        obtain ⟨a, ha, haid, -⟩ := hx.listed hp
        rw [ha, Option.map_some, Option.map_some, hf (haid.trans hid), Option.map_some]
      · rfl
    rw [habsorb hc, habsorb hd, h.calls]
  · rw [h.pending hid]
    split
    · rename_i hp
      obtain ⟨a, ha, haid, -⟩ := hd.listed hp
      rw [ha, h.symm.call?_eq ha (by rwa [haid])]
    · exact h.calls k

theorem Alike.forget (h : Alike i c d) (hc : c.Sound) (hd : d.Sound) (id : UInt64) :
    Alike i (c.forget id) (d.forget id) := by
  refine ⟨by simp [h.channel], by simp [h.receiving], fun {j} hj => ?_, fun k => ?_⟩
  · rw [pending_forget, pending_forget, h.pending hj]
  · rw [call?_forget, call?_forget]
    exact h.changeListed hc hd Call.veil_lose id k

theorem Alike.forget_left (hc : c.Sound) : Alike i c (c.forget i) := by
  refine ⟨by simp, by simp, fun {j} hj => ?_, fun k => ?_⟩
  · rw [pending_forget, if_neg hj]
  · rw [call?_forget]
    split
    · rename_i hp
      obtain ⟨a, ha, haid, -⟩ := hc.listed hp
      rw [ha, Option.map_some, Option.map_some, Option.map_some, Call.veil_lose haid]
    · rfl

/-- Ends a call without taking its id off the list. -/
def setProgress (c : Client) (k : CallKey) (p : Progress) : Client :=
  { c with calls := c.calls.modify k fun x => { x with progress := p } }

theorem finish_eq {call : Call} (hk : c.call? k = .some call) (p : Progress) :
    c.finish k p = (c.forget call.request.id).setProgress k p := by
  unfold finish
  rw [hk]
  rfl

theorem call?_setProgress (c : Client) (k : CallKey) (p : Progress) (l : CallKey) :
    (c.setProgress k p).call? l =
      if l = k then (c.call? l).map fun x => { x with progress := p } else c.call? l :=
  Table.get?_modify _ _ _ _

theorem Alike.setProgress (h : Alike i c d) (k : CallKey) (p : Progress) :
    Alike i (c.setProgress k p) (d.setProgress k p) := by
  refine ⟨h.channel, h.receiving, h.pending, fun l => ?_⟩
  rw [call?_setProgress, call?_setProgress]
  split
  · cases hl : c.call? l with
    | none => simp [h.none hl]
    | some a =>
      obtain ⟨b, hb, hveil⟩ := h.some hl
      simp [hb, Call.veil_setProgress hveil p]
  · exact h.calls l

theorem Alike.finish (h : Alike i c d) (hc : c.Sound) (hd : d.Sound) (k : CallKey) (p : Progress) :
    Alike i (c.finish k p) (d.finish k p) := by
  cases hk : c.call? k with
  | none =>
    rw [Client.finish, Client.finish, hk, h.none hk]
    exact h
  | some a =>
    obtain ⟨b, hb, hveil⟩ := h.some hk
    rw [finish_eq hk, finish_eq hb, Call.request_of_veil hveil]
    exact (h.forget hc hd b.request.id).setProgress k p

/-- The end of a call with the id is not seen, unless it gives something back to the channel. -/
theorem Alike.finish_left {a : Call} (hc : c.Sound) (hk : c.call? k = .some a) (hid : a.request.id = i)
    (ha : ∀ t, a.progress ≠ .sending t) {p : Progress} (hp : ∀ t, p ≠ .sending t) :
    Alike i c (c.finish k p) := by
  rw [finish_eq hk, hid]
  refine (Alike.forget_left hc).trans ⟨rfl, rfl, fun _ => rfl, fun l => ?_⟩
  rw [call?_setProgress]
  split
  · rename_i hl
    subst hl
    obtain ⟨b, hb, hveil⟩ := (Alike.forget_left hc).some hk
    have hbid : b.request.id = i := by rw [← Call.request_of_veil hveil, hid]
    have hbp : ∀ t, b.progress ≠ .sending t := fun t => by
      rw [ne_eq, ← Call.sending_of_veil hveil]
      exact ha t
    rw [hb]
    simp [Call.veil, hbid, Progress.share_eq_gone hp, Progress.share_eq_gone hbp]
  · rfl

/-! ## Every act -/

theorem Alike.begin (h : Alike i c d) (hc : c.Sound) (hd : d.Sound) (k : CallKey) (r : Request) (n : Nat) :
    Alike i (c.begin k r n) (d.begin k r n) := by
  refine ⟨by rw [channel_begin, channel_begin, h.channel], by simp [h.receiving], fun {j} hj => ?_,
    fun l => ?_⟩
  · rw [pending_begin, pending_begin, h.channel, h.pending hj]
  · obtain ⟨s, p, hsp, hcall⟩ := call?_begin c k r n
    obtain ⟨s', p', hsp', hcall'⟩ := call?_begin d k r n
    have hsame : s = s' ∧ p = p' := by
      rw [h.channel] at hsp
      rcases hsp with ⟨hclosed, rfl, rfl⟩ | ⟨hclosed, rfl, rfl⟩ <;>
        rcases hsp' with ⟨hclosed', rfl, rfl⟩ | ⟨hclosed', rfl, rfl⟩ <;> simp_all
    rw [hcall, hcall', hsame.1, hsame.2]
    split
    · rfl
    · exact (h.forget hc hd r.id).calls l

theorem Alike.deliver (h : Alike i c d) (hc : c.Sound) (hd : d.Sound) (r : Reply) :
    Alike i (c.deliver r) (d.deliver r) := by
  refine ⟨by simp [h.channel], by simp [h.receiving], fun {j} hj => ?_, fun l => ?_⟩
  · rw [pending_deliver, pending_deliver, h.pending hj]
  · rw [call?_deliver, call?_deliver]
    exact h.changeListed hc hd (fun ha => Call.veil_fill ha _) r.id l

theorem Alike.deliver_left (hc : c.Sound) {r : Reply} (hr : r.id = i) : Alike i c (c.deliver r) := by
  refine ⟨by simp, by simp, fun {j} hj => ?_, fun l => ?_⟩
  · rw [pending_deliver, hr, if_neg hj]
  · rw [call?_deliver]
    split
    · rename_i hp
      obtain ⟨a, ha, haid, -⟩ := hc.listed hp
      rw [ha, Option.map_some, Option.map_some, Option.map_some, Call.veil_fill (haid.trans hr)]
    · rfl

theorem Alike.mem_values (h : Alike i c d) (hc : c.Sound) (hd : d.Sound) {a : Call}
    (hk : c.call? k = .some a) (hid : a.request.id ≠ i) (hmem : k ∈ c.pending.values) :
    k ∈ d.pending.values := by
  obtain ⟨j, hj⟩ := (Table.mem_values hc.distinct).mp hmem
  rw [h.pending (by rwa [← hc.id_eq hj hk])] at hj
  exact (Table.mem_values hd.distinct).mpr ⟨j, hj⟩

theorem Alike.cutOff (h : Alike i c d) (hc : c.Sound) (hd : d.Sound) : Alike i c.cutOff d.cutOff := by
  refine ⟨h.channel, rfl, fun _ => rfl, fun l => ?_⟩
  rw [call?_cutOff, call?_cutOff]
  cases hl : c.call? l with
  | none => simp [h.none hl]
  | some a =>
    obtain ⟨b, hb, hveil⟩ := h.some hl
    rw [hb]
    by_cases hid : a.request.id = i
    · have hbid : b.request.id = i := by rw [← Call.request_of_veil hveil, hid]
      split <;> split <;> simp [Call.veil_fill, hid, hbid, hveil]
    · obtain rfl := Call.eq_of_veil hveil hid
      have hiff : l ∈ c.pending.values ↔ l ∈ d.pending.values :=
        ⟨h.mem_values hc hd hl hid, h.symm.mem_values hd hc hb hid⟩
      simp only [hiff]

theorem Alike.proceed_left {a : Call} (hc : c.Sound) (hk : c.call? k = .some a) (hid : a.request.id = i)
    (ha : ∀ t, a.progress ≠ .sending t) (now : Nat) : Alike i c ((c.proceed? k now).getD c) := by
  cases hp : c.proceed? k now with
  | none => exact .refl i c
  | some e =>
    obtain ⟨b, hb, -, ⟨t, ht, -⟩ | ⟨o, rfl, -⟩⟩ := proceed?_eq_some hp
    · rw [hk] at hb
      rw [← Option.some.inj hb] at ht
      exact absurd ht (ha t)
    · exact .finish_left hc hk hid ha (by simp)

theorem Alike.insertCall (h : Alike i c d) {a b : Call} (hveil : a.veil i = b.veil i) (k : CallKey) :
    Alike i { c with calls := c.calls.insert k a } { d with calls := d.calls.insert k b } := by
  refine ⟨h.channel, h.receiving, h.pending, fun l => ?_⟩
  simp only [call?, Table.get?_insert]
  split
  · simp [hveil]
  · exact h.calls l

theorem Alike.proceed (h : Alike i c d) (hc : c.Sound) (hd : d.Sound) (k : CallKey) (now : Nat) :
    Alike i ((c.proceed? k now).getD c) ((d.proceed? k now).getD d) := by
  cases hk : c.call? k with
  | none =>
    rw [proceed?, hk, proceed?, h.none hk]
    exact h
  | some a =>
    obtain ⟨b, hb, hveil⟩ := h.some hk
    by_cases hsending : ∃ t, a.progress = .sending t
    · obtain ⟨t, ht⟩ := hsending
      have ht' := (Call.sending_of_veil hveil).mp ht
      simp only [proceed?, hk, hb, ht, ht', h.channel]
      split
      · exact h
      · exact h.finish hc hd k _
      · have hins := h.insertCall (Call.veil_setProgress hveil (.waiting (now + a.patience))) k
        rw [h.channel] at hins
        rw [Call.patience_of_veil hveil] at hins ⊢
        exact hins
    · have ha : ∀ t, a.progress ≠ .sending t := fun t ht => hsending ⟨t, ht⟩
      by_cases hid : a.request.id = i
      · have hbid : b.request.id = i := by rw [← Call.request_of_veil hveil, hid]
        have hb' : ∀ t, b.progress ≠ .sending t := fun t ht => ha t ((Call.sending_of_veil hveil).mpr ht)
        exact ((Alike.proceed_left hc hk hid ha now).symm.trans h).trans (.proceed_left hd hb hbid hb' now)
      · obtain rfl := Call.eq_of_veil hveil hid
        simp only [proceed?, hk, hb]
        split
        · rename_i t ht
          exact absurd ht (ha t)
        · cases a.look? now with
          | none => exact h
          | some o => exact h.finish hc hd k _
        · exact h

theorem Alike.abandon_left {a : Call} (hc : c.Sound) (hk : c.call? k = .some a) (hid : a.request.id = i)
    (ha : ∀ t, a.progress ≠ .sending t) : Alike i c (c.abandon k) := by
  rcases abandon_eq c k with he | ⟨b, channel, hb, -, ⟨t, ht, -⟩ | ⟨-, rfl⟩, he⟩
  · rw [he]
    exact .refl i c
  · rw [hk] at hb
    rw [← Option.some.inj hb] at ht
    exact absurd ht (ha t)
  · rw [he]
    exact .finish_left hc hk hid ha (by simp)

theorem Alike.abandon (h : Alike i c d) (hc : c.Sound) (hd : d.Sound) (k : CallKey) :
    Alike i (c.abandon k) (d.abandon k) := by
  cases hk : c.call? k with
  | none =>
    rw [Client.abandon, Client.abandon, hk, h.none hk]
    exact h
  | some a =>
    obtain ⟨b, hb, hveil⟩ := h.some hk
    by_cases hsending : ∃ t, a.progress = .sending t
    · obtain ⟨t, ht⟩ := hsending
      have ht' := (Call.sending_of_veil hveil).mp ht
      simp only [Client.abandon, hk, hb, ht, ht', h.channel]
      exact (h.setChannel _).finish (hc.setChannel _) (hd.setChannel _) k .gone
    · have ha : ∀ t, a.progress ≠ .sending t := fun t ht => hsending ⟨t, ht⟩
      by_cases hid : a.request.id = i
      · have hbid : b.request.id = i := by rw [← Call.request_of_veil hveil, hid]
        have hb' : ∀ t, b.progress ≠ .sending t := fun t ht => ha t ((Call.sending_of_veil hveil).mpr ht)
        exact ((Alike.abandon_left hc hk hid ha).symm.trans h).trans (.abandon_left hd hb hbid hb')
      · obtain rfl := Call.eq_of_veil hveil hid
        simp only [Client.abandon, hk, hb]
        split
        · rename_i t ht
          exact absurd ht (ha t)
        · exact h.finish hc hd k .gone
        · exact h

theorem Alike.receive (h : Alike i c d) (hc : c.Sound) (hd : d.Sound) :
    Alike i (c.receive?.getD c) (d.receive?.getD d) := by
  obtain ⟨channel, pending, calls, receiving⟩ := c
  obtain ⟨channel', pending', calls', receiving'⟩ := d
  obtain rfl : channel = channel' := h.channel
  obtain rfl : receiving = receiving' := h.receiving
  simp only [receive?]
  split
  · exact h
  · split
    · exact (h.setChannel _).deliver (hc.setChannel _) (hd.setChannel _) _
    · exact h.setChannel _
    · split
      · exact h.cutOff hc hd
      · exact h

theorem Sound.act (h : c.Sound) (a : ClientAct) : (c.act a).Sound := by
  cases a with
  | begins k r n =>
    simp only [Client.act]
    split
    · rename_i hk
      exact h.begin (Option.isNone_iff_eq_none.mp hk) r n
    · exact h
  | proceeds k now =>
    simp only [Client.act]
    cases hp : c.proceed? k now with
    | none => exact h
    | some d => exact h.proceed? hp
  | abandons k => exact h.abandon k
  | receives =>
    simp only [Client.act]
    cases hp : c.receive? with
    | none => exact h
    | some d => exact h.receive? hp
  | channel m => exact h.setChannel _

/-- Clients that are alike stay alike, whatever happens to both. -/
theorem Alike.act (h : Alike i c d) (hc : c.Sound) (hd : d.Sound) (a : ClientAct) :
    Alike i (c.act a) (d.act a) := by
  cases a with
  | begins k r n =>
    have hnone : (c.call? k).isNone = (d.call? k).isNone := by
      have := congrArg Option.isNone (h.calls k)
      simpa using this
    simp only [Client.act, hnone]
    split
    · exact h.begin hc hd k r n
    · exact h
  | proceeds k now => exact h.proceed hc hd k now
  | abandons k => exact h.abandon hc hd k
  | receives => exact h.receive hc hd
  | channel m =>
    simp only [Client.act, h.channel]
    exact h.setChannel _

def run (c : Client) (acts : List ClientAct) : Client := acts.foldl act c

theorem Alike.run (h : Alike i c d) (hc : c.Sound) (hd : d.Sound) (acts : List ClientAct) :
    Alike i (c.run acts) (d.run acts) := by
  induction acts generalizing c d with
  | nil => exact h
  | cons a acts ih => exact ih (h.act hc hd a) (hc.act a) (hd.act a)

end Client

end ClusterNet.Messaging
