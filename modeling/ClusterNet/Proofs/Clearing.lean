import ClusterNet.Proofs.Desk

/-!
# Nobody is left waiting

Whoever is on the list is a call that has not come to an end. When no reply will come any more, every call
that still waits for one is on the list, and is found there, or has yet to look at the channel and will see
that it is closed. So nobody waits when the ids that were found have been cleared.
-/

namespace ClusterNet.Messaging

open Wire

/-- Who is on the list under this id will be found. -/
def Receiving.Covers (s : Shards) : Receiving → UInt64 → Prop
  | .taking, _ => True
  | .matching _, _ => True
  | .searching i found, id => id ∈ found ∨ i ≤ s.of id
  | .clearing ids, id => id ∈ ids
  | .over, _ => False

/-- No reply will come any more. -/
def Receiving.ended : Receiving → Bool
  | .taking => false
  | .matching _ => false
  | _ => true

theorem Receiving.covers_of_going {r : Receiving} (h : r.ended = false) (s : Shards) (id : UInt64) :
    r.Covers s id := by
  cases r with
  | taking | matching => trivial
  | _ => cases h

theorem Client.finish_setChannel (c : Client) (d : Channel) (k : CallKey) (p : Progress) :
    ({ c with channel := d } : Client).finish k p = { c.finish k p with channel := d } := by
  unfold finish forget call?
  dsimp only
  split
  · split <;> rfl
  · rfl

namespace Desk

/-- The call has begun and has not come to an end. -/
def Busy (x : Desk) (k : CallKey) : Prop :=
  (x.entering.get? k).isSome = true ∨ ∃ a, x.client.call? k = some a ∧ a.isOpen = true

structure Inv (x : Desk) : Prop where
  regular : x.client.channel.Regular
  written : x.client.channel.OnlyWriteFailures
  /-- An id stands for one call. -/
  once : ∀ k l a b, x.client.call? k = some a → x.client.call? l = some b → a.request.id = b.request.id → k = l
  entering : ∀ k n, x.entering.get? k = some n → ∃ a, x.client.call? k = some a ∧ a.progress = .gone
  own : ∀ id k, x.client.pending.get? id = some k → x.Busy k ∧ ∃ a, x.client.call? k = some a ∧ a.request.id = id
  /-- Whoever still waits for an outcome gets it next, or is listed and will be found. A call that has
  yet to look may be missed. -/
  listed : ∀ k a, x.client.call? k = some a → x.Busy k → a.slot = .empty → (∃ r?, x.hand = some (k, r?)) ∨
    x.client.pending.get? a.request.id = some k ∧
      ((∃ n, x.entering.get? k = some (n + 1)) ∨ x.receiving.Covers x.shards a.request.id)
  held : ∀ k r?, x.hand = some (k, r?) → ∃ a, x.client.call? k = some a
  ended : x.receiving.ended = true → x.client.channel.reader = .stopped
  ticket : ∀ k a t, x.client.call? k = some a → a.progress = .sending t →
    t < x.client.channel.nextTicket ∧ x.client.channel.Tracks t
  /-- No two calls hold the same ticket. -/
  apart : ∀ k l a b t, x.client.call? k = some a → x.client.call? l = some b → a.progress = .sending t →
    b.progress = .sending t → k = l
  earned : ∀ k a o, x.client.call? k = some a → a.progress = .over o →
    a.Unanswered WriteFailure o ∨ a.slot = .filled o

variable {x : Desk} {k : CallKey} {a : Call}

theorem inv_start (limit : Nat) {capacity : Nat} (h : 0 < capacity) (shards : Shards) :
    (start limit capacity shards).Inv where
  regular := Channel.regular_start limit h
  written t e ht := by cases ht
  once k l a b ha := by cases ha
  entering k n hk := by cases hk
  own id k hid := by cases hid
  listed k a ha := by cases ha
  held k r? hk := by cases hk
  ended h := by cases h
  ticket k a t ha := by cases ha
  apart k l a b t ha := by cases ha
  earned k a o ha := by cases ha

theorem Inv.closed (h : x.Inv) (hended : x.receiving.ended = true) : x.client.channel.closed = true :=
  h.regular.reader (h.ended hended)

/-- Only one call is another one than before, and what is said about the others stays true. -/
structure Differs (x y : Desk) (k : CallKey) (b : Call) : Prop where
  channel : y.client.channel = x.client.channel
  shards : y.shards = x.shards
  calls : ∀ l, y.client.call? l = if l = k then some b else x.client.call? l
  entering : ∀ l, l ≠ k → y.entering.get? l = x.entering.get? l
  pending : ∀ id l, l ≠ k → (y.client.pending.get? id = some l ↔ x.client.pending.get? id = some l)
  hand : ∀ l r?, l ≠ k → (y.hand = some (l, r?) ↔ x.hand = some (l, r?))
  covers : ∀ id, id ≠ b.request.id → x.receiving.Covers x.shards id → y.receiving.Covers x.shards id
  ended : y.receiving.ended = true → x.client.channel.reader = .stopped
  once : ∀ l a, l ≠ k → x.client.call? l = some a → a.request.id ≠ b.request.id

theorem call?_eq_ite (hk : x.client.call? k = some a) (l : CallKey) :
    x.client.call? l = if l = k then some a else x.client.call? l := by
  split
  · rename_i hl
    rw [hl]
    exact hk
  · rfl

theorem Differs.call?_self {y : Desk} {b : Call} (h : x.Differs y k b) : y.client.call? k = some b :=
  (h.calls k).trans (if_pos rfl)

theorem Differs.call?_of_ne {y : Desk} {b : Call} {l : CallKey} (h : x.Differs y k b) (hl : l ≠ k) :
    y.client.call? l = x.client.call? l :=
  (h.calls l).trans (if_neg hl)

theorem Differs.busy {y : Desk} {b : Call} {l : CallKey} (h : x.Differs y k b) (hl : l ≠ k) : y.Busy l ↔ x.Busy l := by
  rw [Busy, Busy, h.call?_of_ne hl, h.entering l hl]

theorem Inv.differs (h : x.Inv) {y : Desk} {b : Call} (hy : x.Differs y k b)
    (hgone : ∀ n, y.entering.get? k = some n → b.progress = .gone)
    (hown : ∀ id, y.client.pending.get? id = some k → y.Busy k ∧ b.request.id = id)
    (hlisted : y.Busy k → b.slot = .empty → (∃ r?, y.hand = some (k, r?)) ∨
      y.client.pending.get? b.request.id = some k ∧
        ((∃ n, y.entering.get? k = some (n + 1)) ∨ y.receiving.Covers x.shards b.request.id))
    (hticket : ∀ t, b.progress = .sending t → t < x.client.channel.nextTicket ∧ x.client.channel.Tracks t ∧
      ∀ l a, l ≠ k → x.client.call? l = some a → a.progress ≠ .sending t)
    (hearned : ∀ o, b.progress = .over o → b.Unanswered WriteFailure o ∨ b.slot = .filled o) : y.Inv := by
  -- Every call is the one that differs, or one that was there before.
  have hcases : ∀ {l c}, y.client.call? l = some c → l = k ∧ c = b ∨ l ≠ k ∧ x.client.call? l = some c := by
    intro l c hc
    rw [hy.calls] at hc
    split at hc
    · exact .inl ⟨‹_›, (Option.some.inj hc).symm⟩
    · exact .inr ⟨‹_›, hc⟩
  refine ⟨hy.channel ▸ h.regular, hy.channel ▸ h.written, fun l m c d hc hd hid => ?_, fun l n hl => ?_,
    fun id l hl => ?_, fun l c hc hbusy hslot => ?_, fun l r? hl => ?_,
    fun hended => hy.channel ▸ hy.ended hended, fun l c t hc ht => ?_, fun l m c d t hc hd ht ht' => ?_, fun l c o hc ho => ?_⟩
  · rcases hcases hc with ⟨hl, rfl⟩ | ⟨hl, hc⟩
    · rcases hcases hd with ⟨hm, rfl⟩ | ⟨hm, hd⟩
      · exact hl.trans hm.symm
      · exact absurd hid.symm (hy.once m d hm hd)
    · rcases hcases hd with ⟨hm, rfl⟩ | ⟨hm, hd⟩
      · exact absurd hid (hy.once l c hl hc)
      · exact h.once l m c d hc hd hid
  · by_cases hlk : l = k
    · subst hlk
      exact ⟨b, hy.call?_self, hgone n hl⟩
    · rw [hy.call?_of_ne hlk]
      exact h.entering l n ((hy.entering l hlk).symm.trans hl)
  · by_cases hlk : l = k
    · subst hlk
      exact ⟨(hown id hl).1, b, hy.call?_self, (hown id hl).2⟩
    · rw [hy.busy hlk, hy.call?_of_ne hlk]
      exact h.own id l ((hy.pending id l hlk).mp hl)
  · rcases hcases hc with ⟨rfl, rfl⟩ | ⟨hlk, hc⟩
    · rw [hy.shards]
      exact hlisted hbusy hslot
    · rw [hy.shards, hy.entering l hlk]
      refine (h.listed l c hc ((hy.busy hlk).mp hbusy) hslot).imp (fun ⟨r?, hr⟩ => ⟨r?, (hy.hand l r? hlk).mpr hr⟩)
        fun ⟨hpending, hwhy⟩ => ⟨(hy.pending _ l hlk).mpr hpending, hwhy.imp id ?_⟩
      exact hy.covers _ (hy.once l c hlk hc)
  · by_cases hlk : l = k
    · subst hlk
      exact ⟨b, hy.call?_self⟩
    · rw [hy.call?_of_ne hlk]
      exact h.held l r? ((hy.hand l r? hlk).mp hl)
  · rw [hy.channel]
    rcases hcases hc with ⟨-, rfl⟩ | ⟨-, hc⟩
    · exact ⟨(hticket t ht).1, (hticket t ht).2.1⟩
    · exact h.ticket l c t hc ht
  · rcases hcases hc with ⟨hl, rfl⟩ | ⟨hl, hc⟩
    · rcases hcases hd with ⟨hm, rfl⟩ | ⟨hm, hd⟩
      · exact hl.trans hm.symm
      · exact absurd ht' ((hticket t ht).2.2 m d hm hd)
    · rcases hcases hd with ⟨hm, rfl⟩ | ⟨hm, hd⟩
      · exact absurd ht ((hticket t ht').2.2 l c hl hc)
      · exact h.apart l m c d t hc hd ht ht'
  · rcases hcases hc with ⟨-, rfl⟩ | ⟨-, hc⟩
    · exact hearned o ho
    · exact h.earned l c o hc ho

/-! ## What the channel does -/

theorem Inv.setChannel (h : x.Inv) {d : Channel} (hregular : d.Regular) (hwritten : d.OnlyWriteFailures)
    (hreader : x.client.channel.reader = .stopped → d.reader = .stopped)
    (hticket : ∀ k a t, x.client.call? k = some a → a.progress = .sending t → t < d.nextTicket ∧ d.Tracks t) :
    Inv { x with client := { x.client with channel := d } } :=
  ⟨hregular, hwritten, h.once, h.entering, h.own, h.listed, h.held, fun hended => hreader (h.ended hended), hticket,
    h.apart, h.earned⟩

theorem Inv.withdraw (h : x.Inv) {t : Ticket}
    (ht : ∀ k a, x.client.call? k = some a → a.progress ≠ .sending t) :
    Inv { x with client := { x.client with channel := x.client.channel.withdraw t } } := by
  refine h.setChannel (Client.regular_withdraw h.regular t) h.written id fun k a u ha hu => ?_
  refine (h.ticket k a u ha hu).imp id fun htracks => Client.tracks_withdraw htracks ?_
  rintro rfl
  exact ht k a ha hu

theorem Inv.move (h : x.Inv) {m : ChannelMove} (hpermits : x.client.Permits (.channel m) = true) {d : Channel}
    (hd : x.client.channel.move? m = some d) : Inv { x with client := { x.client with channel := d } } := by
  by_cases hm : ∃ t, m = .withdraws t
  · obtain ⟨t, rfl⟩ := hm
    obtain rfl := Option.some.inj hd
    exact h.withdraw fun k a ha hsending => Client.Permits.ne hpermits ha hsending rfl
  · have hshift := Channel.shift_move? (fun t he => hm ⟨t, he⟩) hd
    exact h.setChannel (hshift.regular h.regular) (h.written.accounts (Channel.accounts_move? hd))
      (fun hstopped => Channel.reader_move? hstopped hd)
      fun k a t ha ht => (h.ticket k a t ha ht).imp (Nat.lt_of_lt_of_le · hshift.nextTicket_le) hshift.tracks

/-! ## What a call does -/

theorem Inv.eq_of_listed (h : x.Inv) (hk : x.client.call? k = some a) {id : UInt64} {l : CallKey}
    (hl : x.client.pending.get? id = some l) : a.request.id = id ↔ l = k := by
  obtain ⟨-, b, hb, hid⟩ := h.own id l hl
  refine ⟨fun heq => h.once l k b a hb hk (hid.trans heq.symm), ?_⟩
  rintro rfl
  rwa [Option.some.inj (hk.symm.trans hb)]

theorem Inv.call?_finish (h : x.Inv) (hk : x.client.call? k = some a) (p : Progress) : ∃ slot,
    (∀ o, a.slot = .filled o → slot = .filled o) ∧ ∀ l, (x.client.finish k p).call? l =
      if l = k then some { a with slot, progress := p } else x.client.call? l := by
  refine ⟨(if x.client.pending.get? a.request.id = some k then a.lose else a).slot, fun o ho => ?_, fun l => ?_⟩
  · split
    · rw [Call.slot_lose_eq (by simp [ho]), ho]
    · exact ho
  · rw [Client.call?_finish hk]
    split
    · rename_i hl
      subst hl
      rw [hk, Option.map_some]
      simp only [Client.ended, if_true]
      split
      · unfold Call.lose
        split <;> rfl
      · rfl
    · rename_i hl
      have hother : x.client.pending.get? a.request.id ≠ some l := fun hlisted =>
        hl ((h.eq_of_listed hk hlisted).mp rfl)
      cases x.client.call? l with
      | none => rfl
      | some b => simp [Client.ended, hother, hl]

theorem Inv.finish (h : x.Inv) (hk : x.client.call? k = some a) {p : Progress} (hp : p = .gone ∨ ∃ o, p = .over o)
    (hearned : ∀ o, p = .over o → a.Unanswered WriteFailure o ∨ a.slot = .filled o) :
    Inv { x with client := x.client.finish k p, entering := x.entering.erase k } := by
  obtain ⟨slot, hslot, hcalls⟩ := h.call?_finish hk p
  have hpending : ∀ id, (x.client.finish k p).pending.get? id = _ := fun id => Client.pending_finish hk p
  have hdiffers : x.Differs { x with client := x.client.finish k p, entering := x.entering.erase k } k
      { a with slot, progress := p } :=
    { channel := Client.channel_finish p
      shards := rfl
      calls := hcalls
      entering := fun l hl => Table.get?_erase_of_ne _ hl
      pending := fun id l hl => by
        dsimp only
        rw [hpending]
        split
        · rename_i hid
          refine ⟨by simp, fun hlisted => absurd ((h.eq_of_listed hk hlisted).mp hid.symm) hl⟩
        · rfl
      hand := fun _ _ _ => Iff.rfl
      covers := fun _ _ => id
      ended := h.ended
      once := fun l b hl hb hid => hl (h.once l k b a hb hk hid) }
  have hleft : ∀ n, (x.entering.erase k).get? k ≠ some n := by simp
  refine h.differs hdiffers (fun n hn => absurd hn (hleft n)) (fun id hid => ?_) (fun hbusy _ => ?_) (fun t ht => ?_)
    fun o ho => (hearned o ho).imp id (hslot o)
  · dsimp only at hid
    rw [hpending] at hid
    split at hid
    · cases hid
    · rename_i hne
      exact absurd ((h.eq_of_listed hk hid).mpr rfl).symm hne
  · rcases hbusy with hentering | ⟨b, hb, hopen⟩
    · simp at hentering
    · obtain rfl := Option.some.inj (hdiffers.call?_self.symm.trans hb)
      rcases hp with rfl | ⟨o, rfl⟩ <;> cases hopen
  · rcases hp with rfl | ⟨o, rfl⟩ <;> cases ht

theorem Inv.register (h : x.Inv) {r : Request} (hfresh : x.Fresh k r) (n : Nat) : (x.register k r n).Inv := by
  obtain ⟨hnone, hids⟩ := fresh_iff.mp hfresh
  have hunlisted : x.client.pending.get? r.id = none := by
    by_contra hsome
    obtain ⟨l, hl⟩ := Option.ne_none_iff_exists'.mp hsome
    obtain ⟨-, b, hb, hid⟩ := h.own _ _ hl
    exact hids l b hb hid
  have hforget : x.client.forget r.id = x.client := by
    rw [Client.forget, hunlisted]
  have hdiffers : x.Differs (x.register k r n) k ⟨r, n, .empty, .gone⟩ :=
    { channel := Client.channel_forget
      shards := rfl
      calls := fun l => by
        simp only [Desk.register, Client.call?, hforget]
        exact Table.get?_insert _ _ _ _
      entering := fun l hl => Table.get?_insert_of_ne _ hl _
      pending := fun id l hl => by
        simp only [Desk.register, hforget, Table.get?_insert]
        split
        · rename_i hid
          rw [hid, hunlisted]
          simp [Ne.symm hl]
        · rfl
      hand := fun _ _ _ => Iff.rfl
      covers := fun _ _ => id
      ended := h.ended
      once := fun l b _ hb => hids l b hb }
  have hentering : (x.register k r n).entering.get? k = some 2 := Table.get?_insert_self _ _ _
  have hbusy : (x.register k r n).Busy k := .inl (by rw [hentering]; rfl)
  have hlisted : (x.register k r n).client.pending.get? r.id = some k := Table.get?_insert_self _ _ _
  refine h.differs hdiffers (fun _ _ => rfl) (fun id hid => ⟨hbusy, ?_⟩)
    (fun _ _ => .inr ⟨hlisted, .inl ⟨1, hentering⟩⟩) (fun t ht => by cases ht) (fun o ho => by cases ho)
  simp only [Desk.register, hforget, Table.get?_insert] at hid
  split at hid
  · exact Eq.symm ‹_›
  · obtain ⟨-, b, hb, -⟩ := h.own _ _ hid
    rw [hnone] at hb
    cases hb

theorem Inv.goOn (h : x.Inv) (hk : x.client.call? k = some a) (hbusy : x.Busy k) {p : Progress}
    (hp : Call.isOpen { a with progress := p } = true) (hlooked : ∀ n, x.entering.get? k ≠ some (n + 1))
    (hticket : ∀ t, p = .sending t → t < x.client.channel.nextTicket ∧ x.client.channel.Tracks t ∧
      ∀ l b, l ≠ k → x.client.call? l = some b → b.progress ≠ .sending t) :
    Inv { x with
      client := { x.client with calls := x.client.calls.insert k { a with progress := p } }
      entering := x.entering.erase k } := by
  have hdiffers : x.Differs { x with
      client := { x.client with calls := x.client.calls.insert k { a with progress := p } }
      entering := x.entering.erase k } k { a with progress := p } :=
    { channel := rfl
      shards := rfl
      calls := fun l => Table.get?_insert _ _ _ _
      entering := fun l hl => Table.get?_erase_of_ne _ hl
      pending := fun _ _ _ => Iff.rfl
      hand := fun _ _ _ => Iff.rfl
      covers := fun _ _ => id
      ended := h.ended
      once := fun l b hl hb hid => hl (h.once l k b a hb hk hid) }
  refine h.differs hdiffers (fun n hn => by simp at hn) (fun id hid => ⟨.inr ⟨_, hdiffers.call?_self, hp⟩, ?_⟩)
    (fun _ hslot => ?_) hticket (fun o ho => ?_)
  · exact (h.eq_of_listed hk hid).mpr rfl
  · refine (h.listed k a hk hbusy hslot).imp id ?_
    rintro ⟨hlisted, ⟨n, hn⟩ | hcovers⟩
    · exact absurd hn (hlooked n)
    · exact ⟨hlisted, .inr hcovers⟩
  · subst ho
    cases hp

theorem Inv.look? (h : x.Inv) {y : Desk} (hy : x.look? k = some y) : y.Inv := by
  obtain ⟨n, hn, ⟨-, rfl⟩ | ⟨hopen, rfl⟩⟩ := look?_eq_some hy
  · obtain ⟨a, hk, -⟩ := h.entering k _ hn
    refine h.finish hk (.inr ⟨_, rfl⟩) fun o ho => .inl (.inl ?_)
    exact (Progress.over.inj ho).symm
  · obtain ⟨a, hk, hgone⟩ := h.entering k _ hn
    have hbusy : x.Busy k := .inl (by rw [hn]; rfl)
    have hlooked : (x.entering.insert k n).get? k = some n := Table.get?_insert_self _ _ _
    have hgoing : x.receiving.ended = false := by
      by_contra hended
      rw [h.closed (by simpa using hended)] at hopen
      cases hopen
    have hdiffers : x.Differs { x with entering := x.entering.insert k n } k a :=
      { channel := rfl
        shards := rfl
        calls := call?_eq_ite hk
        entering := fun l hl => Table.get?_insert_of_ne _ hl _
        pending := fun _ _ _ => Iff.rfl
        hand := fun _ _ _ => Iff.rfl
        covers := fun _ _ => id
        ended := h.ended
        once := fun l b hl hb hid => hl (h.once l k b a hb hk hid) }
    refine h.differs hdiffers (fun _ _ => hgone) (fun id hid => ⟨.inl ?_, (h.eq_of_listed hk hid).mpr rfl⟩)
      (fun _ hslot => ?_) (fun t ht => ?_) fun o ho => ?_
    · dsimp only
      rw [hlooked]
      rfl
    · refine (h.listed k a hk hbusy hslot).imp id fun ⟨hlisted, _⟩ => ⟨hlisted, .inr ?_⟩
      exact Receiving.covers_of_going hgoing _ _
    · rw [hgone] at ht
      cases ht
    · rw [hgone] at ho
      cases ho

theorem Inv.hand? (h : x.Inv) {y : Desk} (hy : x.hand? k = some y) : y.Inv := by
  obtain ⟨hzero, a, hk, rfl⟩ := hand?_eq_some hy
  obtain ⟨outbound, blocked, settled, he⟩ := x.client.channel.enqueue_eq (.request a.request)
  have hnext : (x.client.channel.enqueue (.request a.request)).2.nextTicket = x.client.channel.nextTicket + 1 :=
    Channel.nextTicket_enqueue _ _
  have hchannel := h.setChannel (d := (x.client.channel.enqueue (.request a.request)).2)
    (Channel.regular_enqueue h.regular _) (h.written.enqueue _) (fun hstopped => by rw [he]; exact hstopped)
    fun l b t hb ht => ⟨by rw [hnext]; exact Nat.lt_succ_of_lt (h.ticket l b t hb ht).1,
      Channel.tracks_enqueue (h.ticket l b t hb ht).2 _⟩
  refine hchannel.goOn hk (.inl (by dsimp only; rw [hzero]; rfl)) rfl (fun n hn => ?_) fun t ht => ?_
  · cases hzero.symm.trans hn
  · obtain rfl := Progress.sending.inj ht
    refine ⟨?_, Channel.tracks_enqueue_new _ _, fun l b hl hb hsending => ?_⟩
    · dsimp only
      rw [hnext, Channel.ticket_enqueue]
      exact Nat.lt_succ_self _
    · have hlt := (h.ticket l b _ hb hsending).1
      rw [Channel.ticket_enqueue] at hlt
      exact absurd hlt (Nat.lt_irrefl _)

theorem Inv.not_entering (h : x.Inv) (hk : x.client.call? k = some a) (hopen : a.isOpen = true) :
    x.entering.get? k = none := by
  by_contra hentering
  obtain ⟨n, hn⟩ := Option.ne_none_iff_exists'.mp hentering
  obtain ⟨b, hb, hgone⟩ := h.entering k n hn
  obtain rfl := Option.some.inj (hk.symm.trans hb)
  rw [Call.isOpen, hgone] at hopen
  cases hopen

theorem Inv.proceed? (h : x.Inv) {now : Nat} {d : Client} (hd : x.client.proceed? k now = some d) :
    Inv { x with client := d } := by
  obtain ⟨a, hk, hopen, hor⟩ := Client.proceed?_eq_some hd
  have hnone := h.not_entering hk hopen
  have herase := Table.erase_of_get?_eq_none hnone
  rcases hor with ⟨t, -, -, rfl⟩ | ⟨o, rfl, hwhy⟩
  · have hnext := h.goOn hk (.inr ⟨a, hk, hopen⟩) (p := .waiting (now + a.patience)) rfl (by simp [hnone])
      fun t ht => by cases ht
    rwa [herase] at hnext
  · have hover := h.finish hk (p := .over o) (.inr ⟨o, rfl⟩) fun o' ho' => ?_
    · rwa [herase] at hover
    · obtain rfl := Progress.over.inj ho'
      rcases hwhy with ⟨t, e, -, he, rfl⟩ | ⟨-, hlook⟩
      · exact .inl (.inr (.inr ⟨e, h.written he, rfl⟩))
      · rcases Call.look?_eq_some hlook with hslot | rfl | rfl
        · exact .inr hslot
        · exact .inl (.inl rfl)
        · exact .inl (.inr (.inl rfl))

theorem Inv.abandon (h : x.Inv) (k : CallKey) : (x.abandon k).Inv := by
  unfold Desk.abandon
  split
  · rename_i hentering
    obtain ⟨n, hn⟩ := Option.isSome_iff_exists.mp hentering
    obtain ⟨a, hk, -⟩ := h.entering k n hn
    exact h.finish hk (.inl rfl) fun o ho => by cases ho
  · rename_i hentering
    have herase : x.entering.erase k = x.entering := Table.erase_of_get?_eq_none (by simpa using hentering)
    rcases Client.abandon_eq x.client k with he | ⟨a, d, hk, -, hwhy, he⟩
    · rwa [he]
    · have hgone := h.finish hk (p := .gone) (.inl rfl) fun o ho => by cases ho
      rw [herase] at hgone
      rw [he, Client.finish_setChannel]
      rcases hwhy with ⟨t, hsending, rfl⟩ | ⟨-, rfl⟩
      · -- The call that held the ticket is gone, and no other call holds it.
        rw [← x.client.channel_finish (k := k) (p := .gone)]
        refine hgone.withdraw fun l b hb hb' => ?_
        obtain ⟨slot, -, hcalls⟩ := h.call?_finish hk .gone
        rw [hcalls] at hb
        split at hb
        · obtain rfl := Option.some.inj hb
          cases hb'
        · exact absurd (h.apart l k b a t hb hk hb' hsending) ‹_›
      · have hsame : { x.client.finish k .gone with channel := x.client.channel } = x.client.finish k .gone := by
          rw [← x.client.channel_finish (k := k) (p := .gone)]
        rw [hsame]
        exact hgone

/-! ## What the one who takes the replies does -/

theorem Inv.setReceiving (h : x.Inv) {r : Receiving}
    (hcovers : ∀ l b, x.client.call? l = some b → x.client.pending.get? b.request.id = some l →
      x.receiving.Covers x.shards b.request.id → r.Covers x.shards b.request.id)
    (hended : r.ended = true → x.client.channel.reader = .stopped) : Inv { x with receiving := r } :=
  ⟨h.regular, h.written, h.once, h.entering, h.own, fun l b hb hbusy hslot => (h.listed l b hb hbusy hslot).imp id
    fun ⟨hlisted, hwhy⟩ => ⟨hlisted, hwhy.imp id (hcovers l b hb hlisted)⟩, h.held, hended, h.ticket, h.apart, h.earned⟩

/-- To take a call off the list is to have it in hand, so that the others are to be found without it. -/
theorem Inv.pick (h : x.Inv) (hhand : x.hand = none) {r : Receiving} {id : UInt64}
    (hcovers : ∀ i, i ≠ id → x.receiving.Covers x.shards i → r.Covers x.shards i)
    (hended : r.ended = true → x.client.channel.reader = .stopped) (r? : Option Reply) :
    (pick { x with receiving := r } id r?).Inv := by
  unfold Desk.pick
  split
  · rename_i k hk
    obtain ⟨-, a, ha, hid⟩ := h.own id k hk
    subst hid
    have hpending : ∀ i, (x.client.pending.erase a.request.id).get? i = _ := Table.get?_erase _ _
    have hdiffers : x.Differs { x with
        client := { x.client with pending := x.client.pending.erase a.request.id }
        receiving := r
        hand := some (k, r?) } k a :=
      { channel := rfl
        shards := rfl
        calls := call?_eq_ite ha
        entering := fun _ _ => rfl
        pending := fun i l hl => by
          dsimp only
          rw [hpending]
          split
          · rename_i hi
            rw [hi, hk]
            simp [Ne.symm hl]
          · rfl
        hand := fun l r₀ hl => by simp [hhand, Ne.symm hl]
        covers := hcovers
        ended := hended
        once := fun l b hl hb hid => hl (h.once l k b a hb ha hid) }
    refine h.differs hdiffers (fun n hn => ?_) (fun i hi => ?_) (fun _ _ => .inl ⟨r?, rfl⟩)
      (fun t ht => ⟨(h.ticket k a t ha ht).1, (h.ticket k a t ha ht).2, fun l b hl hb hb' => ?_⟩) (h.earned k a · ha)
    · obtain ⟨b, hb, hgone⟩ := h.entering k n hn
      rwa [Option.some.inj (ha.symm.trans hb)]
    · dsimp only at hi
      rw [hpending] at hi
      split at hi
      · cases hi
      · exact absurd ((h.eq_of_listed ha hi).mpr rfl).symm ‹_›
    · exact hl (h.apart l k b a t hb ha hb' ht)
  · rename_i hnone
    refine h.setReceiving (fun l b _ hlisted => hcovers _ ?_) hended
    intro hid
    rw [hid] at hlisted
    exact absurd (hnone.symm.trans hlisted) (by simp)

theorem Inv.tell (h : x.Inv) {r? : Option Reply} (hhand : x.hand = some (k, r?)) : (x.tell k r?).Inv := by
  obtain ⟨a, ha⟩ := h.held k r? hhand
  have hdiffers : x.Differs (x.tell k r?) k (a.fill (a.outcomeFor r?)) :=
    { channel := rfl
      shards := rfl
      calls := fun l => by
        simp only [Desk.tell, Client.call?, Table.get?_modify]
        split
        · rename_i hl
          rw [hl, ← Client.call?, ha]
          rfl
        · rfl
      entering := fun _ _ => rfl
      pending := fun _ _ _ => Iff.rfl
      hand := fun l r₀ hl => by simp [Desk.tell, hhand, Ne.symm hl]
      covers := fun _ _ => id
      ended := h.ended
      once := fun l b hl hb hid => hl (h.once l k b a hb ha (by rw [hid, Call.request_fill])) }
  refine h.differs hdiffers (fun n hn => ?_) (fun i hi => ?_) (fun _ hslot => absurd hslot (a.slot_fill_ne _))
    (fun t ht => ?_) fun o ho => ?_
  · obtain ⟨b, hb, hgone⟩ := h.entering k n hn
    rw [Call.progress_fill, Option.some.inj (ha.symm.trans hb), hgone]
  · obtain ⟨hbusy, b, hb, hid⟩ := h.own i k hi
    obtain rfl := Option.some.inj (ha.symm.trans hb)
    refine ⟨hbusy.imp id ?_, by rw [Call.request_fill, hid]⟩
    rintro ⟨b, hb, hopen⟩
    refine ⟨_, hdiffers.call?_self, ?_⟩
    rw [Client.isOpen_congr (a.progress_fill _), Option.some.inj (ha.symm.trans hb), hopen]
  · rw [Call.progress_fill] at ht
    exact ⟨(h.ticket k a t ha ht).1, (h.ticket k a t ha ht).2, fun l b hl hb hb' => hl (h.apart l k b a t hb ha hb' ht)⟩
  · rw [Call.progress_fill] at ho
    rcases h.earned k a o ha ho with hun | hslot
    · exact .inl (by simpa [Call.Unanswered] using hun)
    · exact .inr (by rw [Call.slot_fill_eq (by simp [hslot]), hslot])

theorem Inv.take (h : x.Inv) {m : Message} {d : Channel} (hd : x.client.channel.receive? = some (m, d)) :
    Inv { x with client := { x.client with channel := d } } := by
  obtain ⟨rest, -, rfl⟩ := Channel.receive?_eq_some hd
  exact h.setChannel ⟨h.regular.capacity, h.regular.attended, h.regular.writer, h.regular.reader⟩ h.written id h.ticket

theorem Inv.receive? (h : x.Inv) {y : Desk} (hy : x.receive? = some y) : y.Inv := by
  unfold Desk.receive? at hy
  split at hy
  · rename_i k r? hhand
    obtain rfl := Option.some.inj hy
    exact h.tell hhand
  rename_i hhand
  split at hy
  · rename_i htaking
    split at hy
    · rename_i r d hd
      obtain rfl := Option.some.inj hy
      exact (h.take hd).setReceiving (fun _ _ _ _ _ => trivial) (by simp [Receiving.ended])
    · rename_i r d hd
      obtain rfl := Option.some.inj hy
      exact h.take hd
    · split at hy
      · rename_i hended
        obtain rfl := Option.some.inj hy
        have hquiet : Inv { x with client := { x.client with receiving := false } } :=
          ⟨h.regular, h.written, h.once, h.entering, h.own, h.listed, h.held, h.ended, h.ticket, h.apart, h.earned⟩
        refine hquiet.setReceiving (fun _ _ _ _ _ => .inr (Nat.zero_le _)) fun _ => ?_
        simpa using (Bool.and_eq_true_iff.mp hended).1
      · cases hy
  · obtain rfl := Option.some.inj hy
    exact h.pick hhand (r := .taking) (fun _ _ _ => trivial) (by simp [Receiving.ended]) _
  · rename_i i found hsearching
    have hstopped := h.ended (by rw [hsearching]; rfl)
    split at hy
    · obtain rfl := Option.some.inj hy
      refine h.setReceiving (fun l b _ hlisted hcovers => ?_) fun _ => hstopped
      rw [hsearching] at hcovers
      rcases hcovers with hfound | hle
      · exact .inl (List.mem_append_left _ hfound)
      · -- This shard is the one that was just read, or it is read later.
        by_cases hshard : (x.shards.of b.request.id : Nat) = i
        · refine .inl (List.mem_append_right _ (List.mem_filter.mpr ⟨?_, decide_eq_true hshard⟩))
          exact Table.contains_iff_mem_keys.mp (by simp [Table.contains, hlisted])
        · exact .inr (Nat.lt_of_le_of_ne hle (Ne.symm hshard))
    · rename_i hlast
      obtain rfl := Option.some.inj hy
      refine h.setReceiving (fun l b _ _ hcovers => ?_) fun _ => hstopped
      rw [hsearching] at hcovers
      exact hcovers.resolve_right fun hle => hlast (Nat.lt_of_le_of_lt hle (x.shards.of b.request.id).isLt)
  · rename_i i ids hclearing
    obtain rfl := Option.some.inj hy
    refine h.pick hhand (fun j hj hcovers => ?_) (fun _ => h.ended (by rw [hclearing]; rfl)) none
    rw [hclearing] at hcovers
    exact (List.mem_cons.mp hcovers).resolve_left hj
  · rename_i hclearing
    obtain rfl := Option.some.inj hy
    refine h.setReceiving (fun l b _ _ hcovers => ?_) fun _ => h.ended (by rw [hclearing]; rfl)
    rw [hclearing] at hcovers
    exact absurd hcovers List.not_mem_nil
  · cases hy

theorem Inv.act (h : x.Inv) (m : DeskAct) : (x.act m).Inv := by
  cases m with
  | registers k r n =>
    simp only [Desk.act]
    split
    · exact h.register ‹_› n
    · exact h
  | looks k =>
    simp only [Desk.act]
    cases hy : x.look? k with
    | none => exact h
    | some y => exact h.look? hy
  | hands k =>
    simp only [Desk.act]
    cases hy : x.hand? k with
    | none => exact h
    | some y => exact h.hand? hy
  | proceeds k now =>
    simp only [Desk.act]
    cases hd : x.client.proceed? k now with
    | none => exact h
    | some d => exact h.proceed? hd
  | abandons k => exact h.abandon k
  | receives =>
    simp only [Desk.act]
    cases hy : x.receive? with
    | none => exact h
    | some y => exact h.receive? hy
  | channel m =>
    simp only [Desk.act]
    split
    · cases hd : x.client.channel.move? m with
      | none => exact h
      | some d => exact h.move ‹_› hd
    · exact h

theorem Inv.run (h : x.Inv) (acts : List DeskAct) : (x.run acts).Inv := by
  induction acts generalizing x with
  | nil => exact h
  | cons m acts ih => exact ih (h.act m)

end Desk

end ClusterNet.Messaging
